/-
Module: ThreadScheduler.Proofs.Clocks
Purpose: The two clocks agree. The timer multiplies the ticks it has counted by the length of a
  tick, and the timeline adds up the time that passes; as long as only the scheduler drives the
  timer both show the ticks of processor 0 since scheduling began. Wake times are therefore on one
  scale, also after the clocks have reached the end of their range.
Main exports: Operation.DrivesTimer, Moment.KeepsTime, Moment.Clocks, Kernel.Clocked,
  Machine.ClocksAgree, Machine.clocksAgree
-/
import ThreadScheduler.Proofs.Retention
import ThreadScheduler.Proofs.Retirement
import ThreadScheduler.Proofs.Sleep

namespace ThreadScheduler

/-- Whether an operation drives the timer past the scheduler. -/
def Operation.DrivesTimer : Operation → Prop
  | .startTimer .. | .stopTimer | .interruptTimer => True
  | _ => False

instance (operation : Operation) : Decidable operation.DrivesTimer := by
  unfold Operation.DrivesTimer
  split <;> infer_instance

/-- A tick of processor 0 after scheduling began. -/
def Moment.KeepsTime (x : Moment) : Prop :=
  x.before.initialized = true ∧ x.operation = .tick ∧ x.cpu = 0

instance (x : Moment) : Decidable x.KeepsTime := inferInstanceAs (Decidable (_ ∧ _))

/-- The ticks of processor 0 since scheduling began. -/
def ticksKept (past : List Moment) : Nat := past.countP (·.KeepsTime)

namespace PeriodicTimer

variable {t t' : PeriodicTimer} {frequency : UInt64} {quantum : Duration}

/-- A timer that has been started runs at the granted rate and has counted nothing. -/
theorem eq_of_start (started : t.start frequency quantum = .ok t') :
    t' = { t with
      running := true
      quantum
      counter := t.counter.configure (t.grantedFrequency frequency) } := by
  unfold start at started
  split at started
  · cases started
  split at started
  · cases started
  split at started
  · cases started
  exact (Except.ok.inj started).symm

@[simp] theorem toNat_grantedFrequency (t : PeriodicTimer) (requested : UInt64) :
    (t.grantedFrequency requested).toNat = min requested.toNat t.sourceFrequency.toNat := by
  unfold grantedFrequency
  split
  · rename_i faster
    have := UInt64.lt_iff_toNat_lt.mp faster
    omega
  · rename_i slower
    have := Nat.le_of_not_lt fun lt => slower (UInt64.lt_iff_toNat_lt.mpr lt)
    omega

@[simp] theorem sourceFrequency_interrupt (t : PeriodicTimer) :
    t.interrupt.2.sourceFrequency = t.sourceFrequency := by
  unfold interrupt
  split <;> rfl

/-- What the timer shows is the product of what it has counted and the length of a tick. -/
theorem toNat_now (t : PeriodicTimer) :
    t.now.nanos.toNat = min (t.ticks.toNat * t.nanosPerTick.toNat) Saturating.maxWord :=
  Saturating.toNat_mul _ _

end PeriodicTimer

/-! ### One operation -/

/-- What an operation that leaves the timer to the scheduler does to the two clocks. -/
inductive Moment.Clocks (x : Moment) : Prop where
  | kept (untimed : ¬ x.KeepsTime) (began : x.after.initialized = x.before.initialized)
      (timer : x.after.timer = x.before.timer) (now : x.after.sleeping.now = x.before.sleeping.now)
  | ticked (timed : x.KeepsTime) (begun : x.after.initialized = true)
      (timer : x.after.timer = x.before.timer.interrupt.2)
      (now : x.after.sleeping.now = x.before.sleeping.now + x.before.timer.interrupt.1)
  | began (fresh : x.before.initialized = false) (begun : x.after.initialized = true)
      (started : x.before.timer.start x.before.config.tickFrequency x.before.config.quantum =
        .ok x.after.timer)
      (now : x.after.sleeping.now = x.before.sleeping.now)
  /-- The timer was started and, when the first threads could not be made, stopped again. -/
  | abandoned {timer : PeriodicTimer} (fresh : x.before.initialized = false)
      (still : x.after.initialized = false)
      (started : x.before.timer.start x.before.config.tickFrequency x.before.config.quantum =
        .ok timer)
      (stopped : x.after.timer = { timer with running := false })
      (now : x.after.sleeping.now = x.before.sleeping.now)

namespace Kernel

variable {k : Kernel}

/-- Setup that failed leaves the timer it has started stopped. -/
theorem timer_discarded {timer before : PeriodicTimer} {frequency : UInt64} {quantum : Duration}
    (started : before.start frequency quantum = .ok timer) (same : k.timer = timer) (mark : Nat) :
    (k.discarded mark).timer = { timer with running := false } := by
  have runs : timer.running = true := by rw [PeriodicTimer.eq_of_start started]
  simp [discarded, PeriodicTimer.stop, same, runs, Except.toOption]

/-- Processor 0 keeps time by one interrupt of the timer. -/
theorem clock_beforeCharge (k : Kernel) (here : Nat) :
    (k.beforeCharge here).timer = (if here = 0 then k.timer.interrupt.2 else k.timer) ∧
      (k.beforeCharge here).sleeping.now =
        (if here = 0 then k.sleeping.now + k.timer.interrupt.1 else k.sleeping.now) := by
  unfold beforeCharge
  split
  · obtain ⟨_, _, same⟩ := makeReadyAll_frame k.woken
      { k with
        timer := k.timer.interrupt.2
        sleeping := (k.sleeping.advance k.timer.interrupt.1).drain.2 }
    unfold timeKept
    rw [same]
    exact ⟨rfl, rfl⟩
  · exact ⟨rfl, rfl⟩

end Kernel

namespace Moment.Takes

open Kernel

variable {x : Moment} {course : Course}

/-- Giving a processor its next thread leaves the timer alone. -/
theorem timer (h : x.Takes course) : x.after.timer = course.moved.timer := by
  obtain ⟨_, _, _, _, same⟩ := h.frame
  rw [same]

theorem initialized (h : x.Takes course) : x.after.initialized = course.moved.initialized := by
  obtain ⟨_, _, _, _, same⟩ := h.frame
  rw [same]

private theorem clocks_of_kept (h : x.Takes course) (untimed : x.operation ≠ .tick)
    (began : course.moved.initialized = x.before.initialized)
    (timer : course.moved.timer = x.before.timer)
    (now : course.moved.sleeping.now = x.before.sleeping.now) : x.Clocks :=
  .kept (fun timed => untimed timed.2.1) (h.initialized.trans began) (h.timer.trans timer)
    (by rw [h.sleeping, now])

private theorem clocks_of_charged (h : x.Takes course) (ticks : x.operation = .tick)
    (begun : x.before.initialized = true)
    (timer : course.moved.timer = (x.before.beforeCharge x.cpu).timer)
    (now : course.moved.sleeping = (x.before.beforeCharge x.cpu).sleeping) : x.Clocks := by
  obtain ⟨counted, passed⟩ := clock_beforeCharge x.before x.cpu
  rw [← timer, ← h.timer] at counted
  rw [← now, ← h.sleeping] at passed
  by_cases first : x.cpu = 0
  · rw [if_pos first] at counted passed
    exact .ticked ⟨begun, ticks, first⟩ (h.begun_after begun) counted passed
  · rw [if_neg first] at counted passed
    exact .kept (fun timed => first timed.2.2) ((h.begun_after begun).trans begun.symm)
      counted passed

private theorem clocks_of_ended {thread : Thread} (h : x.Takes course)
    (untimed : x.operation ≠ .tick) (moved : course.moved = x.before.ended thread) : x.Clocks := by
  obtain ⟨_, _, _, _, _, frame⟩ := ended_frame x.before thread
  refine h.clocks_of_kept untimed ?_ ?_ ?_
  · rw [moved, frame]
  · rw [moved, frame]
  · rw [moved]
    rcases sleeping_ended x.before thread with same | taken
    · rw [same]
    · exact Timeline.now_remove taken

/-- The clocks change in three ways only. -/
theorem clocks (h : x.Takes course) (waits : ¬ x.operation.DrivesTimer)
    (granted : x.KeepsTime → ∃ reply, x.result = .ok reply) : x.Clocks := by
  obtain ⟨k, here, operation, result, after⟩ := x
  have transition := h.transition
  dsimp only at transition waits granted
  cases transition with
  | refused | denied =>
    refine .kept (fun timed => ?_) h.initialized h.timer (by rw [h.sleeping]; rfl)
    obtain ⟨_, accepted⟩ := granted timed
    cases accepted
  | answered _ _ inquiry =>
    exact h.clocks_of_kept (by rintro rfl; exact inquiry) rfl rfl rfl
  | timerStarted | timerStopped | timerInterrupted => exact absurd trivial waits
  | booted fresh started _ adopted =>
    obtain ⟨_, _, _, _, same⟩ := adopted.frame
    refine .began fresh (by rw [h.after]; rfl) ?_ ?_
    · rw [h.timer, Course.moved, same]
      exact started
    · rw [h.sleeping, Course.moved, same]
      rfl
  | bootstrapRefused _ fresh started =>
    refine .abandoned fresh (by rw [h.after]; exact fresh) started ?_ (by rw [h.sleeping]; rfl)
    rw [h.timer]
    exact timer_discarded started rfl _
  | idleRefused _ fresh started _ adopted =>
    obtain ⟨_, _, _, _, same⟩ := adopted.frame
    refine .abandoned fresh ?_ started ?_ ?_
    · rw [h.initialized, Course.moved, same]
      exact fresh
    · rw [h.timer]
      exact timer_discarded started (by rw [same]; rfl) _
    · rw [h.sleeping, Course.moved, same]
      rfl
  | ignored nothing =>
    -- Ticks are ignored before scheduling begins and on processors that do not exist.
    have untimed : ¬ Moment.KeepsTime ⟨k, here, .tick, .ok .done, after⟩ := by
      rintro ⟨begun, -, rfl⟩
      rcases nothing with fresh | outside
      · cases begun.symm.trans fresh
      · have inside : 0 < k.cpus.length :=
          h.regular.orderly.length.symm ▸ h.regular.orderly.cpus_pos
        exact absurd (List.getElem?_eq_none_iff.mp outside) (Nat.not_le.mpr inside)
    exact .kept untimed h.initialized h.timer (by rw [h.sleeping]; rfl)
  | kept begun => exact h.clocks_of_charged rfl begun rfl rfl
  | replaced begun => exact h.clocks_of_charged rfl begun rfl rfl
  | preempted begun =>
    obtain ⟨_, _, same⟩ := makeReady_frame (k.beforeCharge here) _
    exact h.clocks_of_charged rfl begun (by rw [Course.moved, same]) (by rw [Course.moved, same])
  | yielded | handedOff =>
    obtain ⟨_, _, same⟩ := makeReady_frame _ _
    exact h.clocks_of_kept (by rintro ⟨⟩) (by rw [Course.moved, same]) (by rw [Course.moved, same])
      (by rw [Course.moved, same])
  | @spawned spec id admitted _ admits =>
    obtain ⟨_, _, _, _, _, _, _, rfl⟩ := admits.granted
    obtain ⟨_, _, same⟩ := enqueueReady_frame _ _ _
    exact h.clocks_of_kept (by rintro ⟨⟩) (by rw [Course.moved, same]) (by rw [Course.moved, same])
      (by rw [Course.moved, same])
  | endedElsewhere _ asked | endedHere _ asked =>
    exact h.clocks_of_ended (by rintro rfl; exact asked) rfl
  | fellAsleep _ _ asked =>
    exact h.clocks_of_kept (by rintro rfl; cases asked) rfl rfl rfl
  | stayedAwake _ asked =>
    exact h.clocks_of_kept (by rintro rfl; cases asked) rfl rfl rfl
  | reaped =>
    obtain ⟨_, _, _, same⟩ := reaped_frame k
    have moved : (Course.stay k.reaped).moved = k.reaped := rfl
    exact h.clocks_of_kept (by rintro ⟨⟩) (by rw [moved, same]) (by rw [moved, same])
      (by rw [moved, same])
  | _ => exact h.clocks_of_kept (by rintro ⟨⟩) rfl rfl rfl

/-- The rate at which a start of the timer would be granted never changes. -/
theorem rate_after (h : x.Takes course) (clocks : x.Clocks) :
    x.after.timer.grantedFrequency x.after.config.tickFrequency =
      x.before.timer.grantedFrequency x.before.config.tickFrequency := by
  have config : x.after.config = x.before.config := by rw [h.after, h.transition.config]
  have source : x.after.timer.sourceFrequency = x.before.timer.sourceFrequency := by
    cases clocks with
    | kept _ _ timer => rw [timer]
    | ticked _ _ timer => rw [timer, PeriodicTimer.sourceFrequency_interrupt]
    | began _ _ started => rw [PeriodicTimer.eq_of_start started]
    | abandoned _ _ started stopped => rw [stopped, PeriodicTimer.eq_of_start started]
  rw [config, PeriodicTimer.grantedFrequency, source, PeriodicTimer.grantedFrequency]

end Moment.Takes

/-! ### Whole runs -/

/-- Both clocks have counted `n` ticks, which begin with scheduling and come at the rate
`granted`. -/
structure Kernel.Clocked (k : Kernel) (granted : UInt64) (n : Nat) : Prop where
  rate : k.timer.grantedFrequency k.config.tickFrequency = granted
  fresh : k.initialized = false → n = 0
  runs : k.initialized = true → k.timer.running = true ∧ k.timer.frequency = granted
  /-- The count of the timer returns to zero after the last 64-bit number. -/
  counted : k.timer.ticks = .ofNat n
  passed : k.sleeping.now.nanos.toNat = min (n * k.timer.nanosPerTick.toNat) Saturating.maxWord

namespace Kernel.Clocked

variable {k : Kernel} {granted : UInt64} {n : Nat}

/-- As long as the count of the timer has not returned to zero, the clocks show the same. -/
theorem agree (h : k.Clocked granted n) (few : n < UInt64.size) : k.timer.now = k.sleeping.now := by
  have counted : k.timer.ticks.toNat = n := by
    rw [h.counted, UInt64.toNat_ofNat_of_lt' few]
  apply Instant.ext
  apply UInt64.toNat_inj.mp
  rw [PeriodicTimer.toNat_now, counted, h.passed]

theorem toNat_now (h : k.Clocked granted n) :
    k.sleeping.now.nanos.toNat =
      min Saturating.maxWord (n * (nanosPerSecond.toNat / granted.toNat)) := by
  cases begun : k.initialized with
  | false => rw [h.passed, h.fresh begun, Nat.zero_mul, Nat.zero_mul, Nat.min_comm]
  | true =>
    have length : k.timer.nanosPerTick = nanosPerSecond / granted :=
      k.timer.counter.agrees.trans (congrArg (nanosPerSecond / ·) (h.runs begun).2)
    rw [h.passed, length, UInt64.toNat_div, Nat.min_comm]

/-- An operation lets both clocks count the same ticks. -/
theorem step {x : Moment} {course : Course} (h : x.before.Clocked granted n)
    (takes : x.Takes course) (clocks : x.Clocks) :
    x.after.Clocked granted (n + if x.KeepsTime then 1 else 0) := by
  have rate := (takes.rate_after clocks).trans h.rate
  -- A timer that has just been started has counted nothing, whether or not it still runs.
  have restarts {timer : PeriodicTimer} (fresh : x.before.initialized = false)
      (started : x.before.timer.start x.before.config.tickFrequency x.before.config.quantum =
        .ok timer) :
      ¬ x.KeepsTime ∧ n = 0 ∧ timer.ticks = 0 ∧ timer.running = true ∧
        timer.frequency = granted := by
    have untimed : ¬ x.KeepsTime := fun timed => Bool.false_ne_true (fresh.symm.trans timed.1)
    obtain rfl := PeriodicTimer.eq_of_start started
    exact ⟨untimed, h.fresh fresh, rfl, rfl, h.rate⟩
  cases clocks with
  | kept untimed began timer now =>
    rw [if_neg untimed, Nat.add_zero]
    exact ⟨rate, fun still => h.fresh (began ▸ still), fun begun => timer ▸ h.runs (began ▸ begun),
      timer ▸ h.counted, by rw [now, timer, h.passed]⟩
  | ticked timed begun timer now =>
    obtain ⟨runs, frequency⟩ := h.runs timed.1
    have interrupt : x.before.timer.interrupt =
        (⟨x.before.timer.nanosPerTick⟩,
          { x.before.timer with counter := x.before.timer.counter.increment.2 }) := if_pos runs
    rw [interrupt] at timer now
    rw [if_pos timed]
    refine ⟨rate, fun still => (by cases begun.symm.trans still), fun _ => ?_, ?_, ?_⟩
    · rw [timer]
      exact ⟨runs, frequency⟩
    · have next : x.after.timer.ticks = x.before.timer.ticks + 1 := by rw [timer]; rfl
      rw [next, h.counted, UInt64.ofNat_add]
      rfl
    · have length : x.after.timer.nanosPerTick = x.before.timer.nanosPerTick := by rw [timer]; rfl
      rw [now, Instant.toNat_add, h.passed, length, Nat.succ_mul]
      dsimp only
      omega
  | began fresh begun started now =>
    obtain ⟨untimed, rfl, ticks, runs, frequency⟩ := restarts fresh started
    rw [if_neg untimed]
    refine ⟨rate, fun _ => rfl, fun _ => ⟨runs, frequency⟩, ticks, ?_⟩
    rw [now, h.passed, Nat.zero_mul, Nat.zero_mul]
  | abandoned fresh still started stopped now =>
    obtain ⟨untimed, rfl, ticks, _, _⟩ := restarts fresh started
    rw [if_neg untimed]
    refine ⟨rate, fun _ => rfl, fun begun => (by cases still.symm.trans begun), ?_, ?_⟩
    · rw [stopped]
      exact ticks
    · rw [now, h.passed, Nat.zero_mul, Nat.zero_mul]

end Kernel.Clocked

/-- To sleep for a span of time is to sleep until the moment that the timeline reckons. -/
theorem Call.sleepUntil_add (m : Machine) (span : Duration) :
    sleepUntil (m.kernel.sleeping.now + span) m = sleepFor span m := by
  unfold sleepUntil sleepFor sleep critical caller
  simp only [bind, EStateM.bind, requireInitialized_apply]
  cases m.kernel.initialized with
  | false => rfl
  | true =>
    simp only [if_true, kernel_apply, cpu_apply, Machine.kernel_mask]
    cases m.kernel.caller m.mask.2.cpu with
    | error => rfl
    | ok id => simp only [answer_ok, Machine.kernel_mask]

namespace Machine

variable {m : Machine} {requests : List Request} {granted : UInt64} {n : Nat}

/-- A tick after scheduling began is never refused. -/
theorem granted_of_keepsTime (reached : m.kernel.Reachable) {request : Request}
    (timed : (m.moment request).KeepsTime) :
    ∃ reply, (m.moment request).result = .ok reply := by
  obtain ⟨cpu, operation⟩ := request
  obtain ⟨begun, ticks, first⟩ := timed
  obtain rfl : operation = .tick := ticks
  obtain rfl : cpu = 0 := first
  have orderly := reached.regular.orderly
  have idleAssigned := (orderly.idleAssigned begun 0 (orderly.length.symm ▸ orderly.cpus_pos)).2
  exact granted_of_relieves begun idleAssigned trivial

/-- Both clocks count the ticks of a run in which only the scheduler drives the timer. -/
theorem clocked_run (reached : m.kernel.Reachable) (before : m.kernel.Clocked granted n)
    (waits : ∀ request ∈ requests, ¬ request.operation.DrivesTimer) :
    (m.run requests).kernel.Clocked granted (n + ticksKept (m.history requests)) := by
  induction requests generalizing m n with
  | nil => exact before
  | cons request rest ih =>
    obtain ⟨course, takes⟩ := exists_course reached request
    obtain ⟨first, later⟩ := List.forall_mem_cons.mp waits
    have next := before.step takes (takes.clocks first (granted_of_keepsTime reached))
    have all := ih (reached.step request.cpu request.operation) next later
    have sum : ticksKept (m.history (request :: rest)) =
        (if (m.moment request).KeepsTime then 1 else 0) +
          ticksKept ((m.execute request.cpu request.operation).machine.history rest) := by
      rw [history, ticksKept, List.countP_cons, Nat.add_comm]
      simp [ticksKept]
    rw [sum, ← Nat.add_assoc]
    exact all

/-- The two clocks of a kernel after a run. -/
structure ClocksAgree (m : Machine) (requests : List Request) : Prop where
  agree : (m.run requests).kernel.timer.now = (m.run requests).kernel.sleeping.now
  /-- A rate of zero gives ticks that take no time. -/
  shown : (m.run requests).kernel.timer.now.nanos.toNat =
    min Saturating.maxWord (ticksKept (m.history requests) *
      (nanosPerSecond.toNat /
        min m.kernel.config.tickFrequency.toNat m.kernel.timer.sourceFrequency.toNat))
  /-- A wake time that is reckoned from the timer is the one that the timeline reckons. -/
  relative : ∀ cpu span,
    (m.run requests).execute cpu (.sleepUntil ((m.run requests).kernel.timer.now + span)) =
      (m.run requests).execute cpu (.sleepFor span)
  /-- Those whose wake time the timer shows are awake. -/
  awaited : ∀ sleeper ∈ (m.run requests).kernel.sleeping.sleepers,
    (m.run requests).kernel.timer.now < sleeper.2

/-- The clocks agree in every run of a new kernel in which only the scheduler drives the timer,
until the count of the timer returns to zero. -/
theorem clocksAgree {config : Config} {name : String} {sourceFrequency : UInt64} {heap : Heap}
    (made : Kernel.ofConfig config { name, sourceFrequency } heap = .ok m.kernel)
    (waits : ∀ request ∈ requests, ¬ request.operation.DrivesTimer)
    (few : ticksKept (m.history requests) < UInt64.size) : m.ClocksAgree requests := by
  have reached : m.kernel.Reachable := .new made
  obtain ⟨_, new⟩ := Kernel.eq_of_ofConfig made
  have start : m.kernel.Clocked
    (m.kernel.timer.grantedFrequency m.kernel.config.tickFrequency) 0 := by
    constructor
    · rfl
    · exact fun _ => rfl
    · intro begun
      rw [new] at begun
      cases begun
    · rw [new]
      rfl
    · rw [new, Nat.zero_mul]
      rfl
  have clocked := clocked_run reached start waits
  rw [Nat.zero_add] at clocked
  have agree := clocked.agree few
  refine ⟨agree, ?_, fun cpu span => ?_, fun sleeper listed => ?_⟩
  · rw [agree, clocked.toNat_now, PeriodicTimer.toNat_grantedFrequency]
  · have same := Call.sleepUntil_add { m.run requests with cpu, trace := [] } span
    rw [agree]
    unfold execute Operation.perform
    simp only [Functor.map, EStateM.map]
    rw [same]
  · rw [agree]
    exact (reached.run requests).punctual.now_lt_of_mem listed

/-- A machine whose timer cannot interrupt at the rate asked for. -/
def slowSource : Machine where
  kernel :=
    (Kernel.ofConfig { cpus := 2 } { name := "slow", sourceFrequency := 300 }
      {}).toOption.getD default

/-- A run with ticks before scheduling begins and on the second processor, and with a second attempt
to begin. -/
def lateStart : List Request :=
  [⟨0, .tick⟩, ⟨0, .init 16 none⟩, ⟨0, .tick⟩, ⟨1, .tick⟩, ⟨1, .init 16 none⟩,
    ⟨0, .sleepFor ⟨10000000⟩⟩, ⟨0, .tick⟩, ⟨1, .tick⟩, ⟨0, .tick⟩]

/-- Three ticks count, of three milliseconds and a third each. -/
theorem clocksAgree_of_lateStart :
    ticksKept (slowSource.history lateStart) = 3 ∧
      (slowSource.run lateStart).kernel.sleeping.now.nanos = 9999999 ∧
      (slowSource.run lateStart).kernel.sleeping.sleepers = [(.ofIndex 0, ⟨13333333⟩)] ∧
      slowSource.ClocksAgree lateStart := by
  have counted : ticksKept (slowSource.history lateStart) = 3 := by decide +kernel
  have made : Kernel.ofConfig { cpus := 2 } { name := "slow", sourceFrequency := 300 } {} =
      .ok slowSource.kernel := rfl
  exact ⟨counted, by decide +kernel, by decide +kernel,
    clocksAgree made (by decide) (by rw [counted]; decide)⟩

end Machine

end ThreadScheduler
