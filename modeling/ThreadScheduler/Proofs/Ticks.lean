/-
Module: ThreadScheduler.Proofs.Ticks
Purpose: All that a tick does. It wakes those whose time has come, in the order in which they are to
  wake, and charges the running thread, so that the processor goes on with the best thread there is.
  Nothing else changes.
Main exports: Moment.Rouses, Moment.RunsBest, Moment.KeepsRest, Machine.TicksExactly,
  Machine.ticksExactly
-/
import ThreadScheduler.Proofs.Switching
import ThreadScheduler.Proofs.Ticks.Charges
import ThreadScheduler.Proofs.Timeline.WakeTimes

namespace ThreadScheduler

namespace Moment

/-- What a tick does to time and to those who sleep. -/
structure Rouses (x : Moment) (history : List Moment) : Prop where
  passes : x.cpu = 0 →
    x.after.sleeping.now = x.before.sleeping.now + x.before.elapsed 0 ∧
      x.after.sleeping.sleepers = x.before.sleeping.sleepers.filter (x.after.sleeping.now < ·.2) ∧
      x.after.timer = x.before.timer.interrupt.2
  stands : x.cpu ≠ 0 → x.after.sleeping = x.before.sleeping ∧ x.after.timer = x.before.timer
  order : (x.before.due x.cpu).Pairwise (WakesBefore history)
  ready : ∀ t ∈ x.before.roused x.cpu,
    x.after.stateOf? t = some .ready ∨ x.after.running? x.cpu = some t

/-- How a tick leaves its processor. -/
structure RunsBest (x : Moment) : Prop where
  runs : ∃ t, x.after.running? x.cpu = some t ∧ x.after.stateOf? t = some .running
  works : x.after.ready.toList ≠ [] →
    ∀ t, x.after.running? x.cpu = some t → x.after.isIdle t = false
  unrivalled : ∀ t ∈ x.before.roused x.cpu, ∀ r, x.after.running? x.cpu = some r →
    ¬ x.after.Outranks t r

/-- What a tick of a processor that runs `r` leaves alone. -/
structure KeepsRest (x : Moment) (r : ThreadId) : Prop where
  slots : ∀ cpu, cpu ≠ x.cpu → x.after.cpus[cpu]? = x.before.cpus[cpu]?
  frame : ∃ threads cpus ready timer sleeping switches,
    x.after = { x.before with threads, cpus, ready, timer, sleeping, switches }
  keeps : x.before.Keeps x.after
  others : ∀ t, t ∉ x.before.roused x.cpu → t ≠ r → x.after.running? x.cpu ≠ some t →
    x.after.threads.get? t = x.before.threads.get? t

end Moment

namespace Kernel

variable {k : Kernel} {here : Nat} {r t : ThreadId} {verdict : TickVerdict}

theorem sleeping_beforeCharge (k : Kernel) (here : Nat) :
    (k.beforeCharge here).sleeping =
      if here = 0 then (k.sleeping.advance k.timer.interrupt.1).drain.2 else k.sleeping := by
  unfold beforeCharge
  split
  · obtain ⟨_, _, same⟩ := makeReadyAll_frame k.woken
      { k with
        timer := k.timer.interrupt.2
        sleeping := (k.sleeping.advance k.timer.interrupt.1).drain.2 }
    rw [timeKept, same]
  · rfl

theorem timer_beforeCharge (k : Kernel) (here : Nat) :
    (k.beforeCharge here).timer = if here = 0 then k.timer.interrupt.2 else k.timer := by
  unfold beforeCharge
  split
  · obtain ⟨_, _, same⟩ := makeReadyAll_frame k.woken
      { k with
        timer := k.timer.interrupt.2
        sleeping := (k.sleeping.advance k.timer.interrupt.1).drain.2 }
    rw [timeKept, same]
  · rfl

/-- Charging a thread concerns the records, the slots and the ready queue only. -/
theorem tickCourse_frame (k : Kernel) (here : Nat) (verdict : TickVerdict) :
    ∃ threads cpus ready,
      (k.tickCourse here verdict).moved = { k.beforeCharge here with threads, cpus, ready } := by
  cases verdict with
  | keep slice => exact ⟨_, _, _, rfl⟩
  | preempt id =>
    obtain ⟨threads, ready, same⟩ := makeReady_frame (k.beforeCharge here) id
    exact ⟨threads, _, ready, same⟩
  | replace => exact ⟨_, _, _, rfl⟩

/-- A tick is to preempt no other thread than the one that runs. -/
theorem Judges.eq_of_preempt (judges : k.Judges here r (.preempt t)) : t = r := by
  cases judges
  rfl

/-- Those who neither wake up nor run are not concerned when threads move. -/
theorem get?_tickCourse (punctual : k.sleeping.Punctual) (judges : k.Judges here r verdict)
    (asleep : t ∉ k.roused here) (other : t ≠ r) :
    (k.tickCourse here verdict).moved.threads.get? t = k.threads.get? t := by
  have timed : (k.beforeCharge here).threads.get? t = k.threads.get? t := by
    unfold beforeCharge
    split
    · rename_i first
      subst first
      rw [roused_eq_woken punctual] at asleep
      exact get?_makeReadyAll_of_not_mem k.woken _ asleep
    · rfl
  cases verdict with
  | keep slice => exact timed
  | replace => exact timed
  | preempt id =>
    obtain rfl := judges.eq_of_preempt
    exact ((amends_makeReady (k.beforeCharge here) id).other other).trans timed

/-- A thread that has become ready is ready when the running thread has been judged. -/
theorem stateOf?_tickCourse (ready : (k.beforeCharge here).stateOf? t = some .ready) :
    (k.tickCourse here verdict).moved.stateOf? t = some .ready := by
  cases verdict with
  | keep slice => exact ready
  | replace => exact ready
  | preempt id => exact stateOf?_makeReady_of_ready ready

end Kernel

namespace Moment.Ticks

open Kernel

variable {x : Moment} {course : Course} {r next t : ThreadId} {history : List Moment}

/-! ### Time and sleepers -/

/-- Only keeping time concerns time. -/
private theorem clocks (h : x.Ticks course r) :
    x.after.sleeping = (x.before.beforeCharge x.cpu).sleeping ∧
      x.after.timer = (x.before.beforeCharge x.cpu).timer := by
  obtain ⟨verdict, _, rfl⟩ := h.exists_verdict
  obtain ⟨_, _, _, _, after⟩ := h.takes.frame
  obtain ⟨_, _, _, moved⟩ := tickCourse_frame x.before x.cpu verdict
  rw [after, moved]
  exact ⟨rfl, rfl⟩

/-- A thread that is woken is ready, unless the processor takes it up. -/
private theorem ready_of_roused (h : x.Ticks course r) (woken : t ∈ x.before.roused x.cpu) :
    x.after.stateOf? t = some .ready ∨ x.after.running? x.cpu = some t := by
  have placement := h.takes.regular.placement
  have slept := place?_of_roused placement h.punctual woken
  have ready : (x.before.beforeCharge x.cpu).stateOf? t = some .ready := by
    unfold beforeCharge
    split
    · rename_i first
      rw [first, roused_eq_woken h.punctual] at woken
      obtain ⟨thread, found, _⟩ := exists_thread_of_place? slept
      exact stateOf?_makeReadyAll x.before.woken (by simp [Kernel.stateOf?, found]) (.inl woken)
    · rename_i other
      rw [roused_elsewhere other] at woken
      cases woken
  obtain ⟨verdict, _, rfl⟩ := h.exists_verdict
  rcases h.takes.stateOf?_of_ready (stateOf?_tickCourse ready) with still | runs
  · exact .inl still
  · right
    have occupied := h.takes.regular_after.placement.occupied
    obtain ⟨cpu, seat⟩ := occupied.running_of_place (stateOf?_eq_some_running_iff.mp runs)
    by_cases same : cpu = x.cpu
    · exact same ▸ seat
    · rw [h.takes.running?_elsewhere h.begun same] at seat
      exact absurd seat (placement.not_running_of_place slept (by rintro ⟨⟩) cpu)

/-- A tick of processor 0 lets time pass and wakes those who are due; no other tick does. -/
theorem rouses (h : x.Ticks course r) (ordered : x.before.SleepsInOrder history) :
    x.Rouses history := by
  obtain ⟨sleeping, timer⟩ := h.clocks
  rw [sleeping_beforeCharge] at sleeping
  rw [timer_beforeCharge] at timer
  constructor
  · intro first
    rw [if_pos first] at sleeping timer
    have now : x.after.sleeping.now = x.before.sleeping.now + x.before.timer.interrupt.1 := by
      rw [sleeping]
      rfl
    refine ⟨now, ?_, timer⟩
    rw [now, sleeping]
    exact h.punctual.sleepers_passed _
  · intro other
    rw [if_neg other] at sleeping timer
    exact ⟨sleeping, timer⟩
  · unfold due
    split
    · exact ordered.order.sublist List.filter_sublist
    · exact List.Pairwise.nil
  · exact fun t => h.ready_of_roused

/-! ### The rest -/

theorem keepsRest (h : x.Ticks course r) : x.KeepsRest r := by
  refine ⟨fun cpu => h.takes.slot_elsewhere h.begun, ?_, h.keeps, ?_⟩
  · obtain ⟨verdict, _, rfl⟩ := h.exists_verdict
    obtain ⟨threads, cpus, ready, switches, after⟩ := h.takes.frame
    obtain ⟨_, _, _, moved⟩ := tickCourse_frame x.before x.cpu verdict
    obtain ⟨_, _, timer, sleeping, timed⟩ := beforeCharge_frame x.before x.cpu
    rw [moved, timed] at after
    exact ⟨threads, cpus, ready, timer, sleeping, switches, after⟩
  · intro t asleep other waits
    obtain ⟨verdict, judges, same⟩ := h.exists_verdict
    have moved : course.moved.threads.get? t = x.before.threads.get? t := by
      rw [same]
      exact get?_tickCourse h.punctual judges asleep other
    rw [← moved]
    cases course with
    | stay k =>
      rw [h.takes.after]
      rfl
    | dispatch k =>
      obtain ⟨next, installs⟩ := h.takes.exists_installs
      have apart : t ≠ next := by
        rintro rfl
        exact waits (by rw [installs.running?, if_pos rfl])
      have ran : k.running? x.cpu = some r := (h.takes.running?_moved h.begun x.cpu).trans h.runs
      rw [installs.amends.other apart, get?_vacate, if_neg]
      · rfl
      · intro both
        exact other (Option.some.inj (both.1.symm.trans ran))

/-! ### Who runs afterwards -/

/-- Nobody joins those who have ended. -/
private theorem terminated (h : x.Ticks course r) : x.after.terminated = x.before.terminated := by
  obtain ⟨_, _, _, _, _, _, same⟩ := h.keepsRest.frame
  rw [same]

theorem isIdle_after (h : x.Ticks course r) (t : ThreadId) :
    x.after.isIdle t = x.before.isIdle t := isIdle_congr (h.takes.idle?_after h.begun)

/-- Whoever takes the place of the running thread waited, or is the idle thread. -/
private theorem not_ended_of_served {waiting : ReadyQueue} (h : x.Ticks course r)
    (levels : ∀ policy, waiting.threadsAt policy = x.before.requeued x.cpu r policy)
    (serves : x.ServesFirst waiting next ∨ x.Idles waiting next) (other : next ≠ r) :
    x.before.place? next ≠ some (.inside .ended) := by
  intro ended
  have placement := h.takes.regular.placement
  rcases serves with first | idles
  · obtain ⟨policy, _, head, _⟩ := first.first
    rw [levels] at head
    rcases List.mem_append.mp (head ▸ List.mem_cons_self) with waits | itself
    · rcases List.mem_append.mp waits with before | woken
      · cases ended.symm.trans (((placement.listed (.level policy)).mem_iff next).mp before)
      · cases ended.symm.trans
          (place?_of_roused placement h.punctual (List.mem_filter.mp woken).1)
    · split at itself
      · exact other (List.mem_singleton.mp itself)
      · cases itself
  · rcases placement.occupied.idle idles.own with stands | stands
    · cases ended.symm.trans stands
    · cases ended.symm.trans stands

private theorem exists_running_after (h : x.Ticks course r) :
    ∃ t, x.after.running? x.cpu = some t ∧ x.after.stateOf? t = some .running := by
  have charges := h.charges
  have regular := h.takes.regular_after
  have inside : x.cpu < x.after.cpus.length := by
    rw [regular.orderly.length, h.keeps.config]
    exact h.takes.regular.inside_of_running h.runs
  obtain ⟨next, runs⟩ := Option.isSome_iff_exists.mp
    (regular.orderly.idleAssigned (h.takes.begun_after h.begun) x.cpu inside).2
  refine ⟨next, runs, ?_⟩
  rcases regular.placement.occupied.place_of_running runs with stands | stands
  · exact stateOf?_eq_some_running_iff.mpr stands
  · have listed : next ∈ x.before.terminated :=
      h.terminated ▸ ((regular.placement.listed .ended).mem_iff next).mpr stands
    by_cases same : next = r
    · subst same
      have state := h.takes.regular.placement.mem_terminated_iff.mp listed
      exact absurd runs (charges.replaced_iff.mpr (.ended state))
    · obtain ⟨_, waiting, levels, serves⟩ := charges.served next same runs
      have ended := ((h.takes.regular.placement.listed .ended).mem_iff next).mp listed
      exact absurd ended (h.not_ended_of_served levels serves same)

/-- A thread that keeps its processor idles only if nobody waits. -/
private theorem busy_of_kept (h : x.Ticks course r) (runs : x.after.running? x.cpu = some r)
    {policy : Policy} (waits : t ∈ x.before.queued x.cpu policy) :
    x.before.idle? x.cpu ≠ some r := by
  intro own
  have some_waiting : x.before.queued x.cpu policy ≠ [] := List.ne_nil_of_mem waits
  exact h.charges.replaced_iff.mpr (.idle own ⟨policy, some_waiting⟩) runs

/-- A processor works while somebody waits. -/
private theorem works (h : x.Ticks course r) (some_waiting : x.after.ready.toList ≠ [])
    (runs : x.after.running? x.cpu = some next) : x.after.isIdle next = false := by
  have charges := h.charges
  rw [h.isIdle_after]
  by_cases same : next = r
  · subst same
    obtain ⟨t, waits⟩ := List.exists_mem_of_ne_nil _ some_waiting
    have ordered := h.takes.regular_after.placement.records.ordered
    obtain ⟨policy, member⟩ := (ReadyQueue.mem_toList_iff ordered).mp waits
    rw [charges.kept runs] at member
    have busy := h.busy_of_kept runs member
    rwa [← Bool.not_eq_true, isIdle_iff_of_running h.takes.regular.placement h.runs]
  · obtain ⟨_, waiting, _, first | idles⟩ := charges.served next same runs
    · exact first.busy
    · exact absurd (idles.same ▸ idles.empty) some_waiting

/-- A thread that keeps its processor is outranked by nobody who was woken. -/
private theorem unrivalled_of_kept (h : x.Ticks course r)
    (runs : x.after.running? x.cpu = some r) (woken : t ∈ x.before.roused x.cpu) :
    ¬ x.before.Outranks t r := by
  intro outranks
  obtain ⟨policy, _, waits⟩ :=
    exists_queued_of_roused h.takes.regular.placement h.punctual woken
  apply h.charges.replaced_iff.mpr _ runs
  by_cases state : x.before.stateOf? r = some .terminated
  · exact .ended state
  · exact .active state (h.busy_of_kept runs waits) (.inr ⟨t, woken, outranks⟩)
      (h.exists_rival ⟨t, woken, outranks⟩)

/-- Nobody who was woken outranks the running thread. -/
private theorem unrivalled (h : x.Ticks course r) (runs : x.after.running? x.cpu = some next)
    (woken : t ∈ x.before.roused x.cpu) : ¬ x.after.Outranks t next := by
  have charges := h.charges
  by_cases same : next = r
  · subst same
    rw [h.outranks_iff]
    exact h.unrivalled_of_kept runs woken
  · obtain ⟨policy, named, waits⟩ :=
      exists_queued_of_roused h.takes.regular.placement h.punctual woken
    obtain ⟨_, waiting, levels, first | idles⟩ := charges.served next same runs
    · obtain ⟨level, ranks, head, others, _⟩ := first.first
      have member : t ∈ waiting.threadsAt policy := by
        rw [levels]
        exact mem_requeued_of_queued waits
      rintro ⟨p, q, is, also, outranks⟩
      obtain rfl := Option.some.inj (ranks.symm.trans also)
      obtain rfl := Option.some.inj (named.symm.trans ((h.policyOf? t).symm.trans is))
      have distinct : policy ≠ level := fun same => Policy.Outranks.irrefl policy (same ▸ outranks)
      have ordered := h.takes.regular_after.placement.records.ordered
      have still : t ∈ x.after.ready.toList :=
        (ReadyQueue.mem_toList_iff ordered).mpr ⟨policy, (others policy distinct).symm ▸ member⟩
      exact first.best t still level policy ranks is outranks
    · have member : t ∈ x.after.ready.threadsAt policy := by
        rw [idles.same, levels]
        exact mem_requeued_of_queued waits
      have ordered := h.takes.regular_after.placement.records.ordered
      rw [ReadyQueue.threadsAt_of_toList_eq_nil ordered (idles.same ▸ idles.empty) policy] at member
      cases member

theorem runsBest (h : x.Ticks course r) : x.RunsBest where
  runs := h.exists_running_after
  works some_waiting _ runs := h.works some_waiting runs
  unrivalled _ woken _ runs := h.unrivalled runs woken

end Moment.Ticks

namespace Machine

variable {m : Machine} {cpu : Nat}

/-- What a tick of a processor does after some history. -/
structure TicksExactly (m : Machine) (history : List Moment) (cpu : Nat) : Prop where
  granted : (m.moment ⟨cpu, .tick⟩).result = .ok .done
  rouses : (m.moment ⟨cpu, .tick⟩).Rouses history
  charges : ∃ r, m.kernel.running? cpu = some r ∧ (m.moment ⟨cpu, .tick⟩).Charges r ∧
    (m.moment ⟨cpu, .tick⟩).KeepsRest r
  best : (m.moment ⟨cpu, .tick⟩).RunsBest

/-- In every kernel that a run of a new kernel leads to, and on every processor, a tick does this
and nothing else. -/
theorem ticksExactly {config : Config} {timer : PeriodicTimer} {heap : Heap}
    (made : Kernel.ofConfig config timer heap = .ok m.kernel) (requests : List Request)
    (begun : (m.run requests).kernel.initialized = true)
    (inside : cpu < (m.run requests).kernel.config.cpus) :
    (m.run requests).TicksExactly (m.history requests) cpu := by
  have reached : (m.run requests).kernel.Reachable := Kernel.Reachable.run (.new made) requests
  obtain ⟨course, r, ticks⟩ := exists_ticks reached begun inside
  constructor
  · obtain ⟨reply, done⟩ := ticks.done
    have transition := ticks.takes.transition
    rw [done] at transition ⊢
    obtain ⟨slot, found, _⟩ := Option.bind_eq_some_iff.mp ticks.runs
    exact congrArg _ (transition.course_of_tick begun found).1
  · exact ticks.rouses (sleepsInOrder made requests)
  · exact ⟨r, ticks.runs, ticks.charges, ticks.keepsRest⟩
  · exact ticks.runsBest

end Machine

/-- A run after which threads 1 and 4 sleep until the first tick, thread 1 was the first of them to
go to sleep, thread 5 runs on the first processor and thread 6 waits. -/
def sleepersDue : List Request :=
  [⟨0, .init 16 none⟩, ⟨0, .spawn { entry := 32, name := "first" }⟩,
    ⟨0, .spawn { entry := 32, name := "second" }⟩, ⟨0, .sleepUntil ⟨1000000⟩⟩,
    ⟨0, .sleepFor ⟨1000000⟩⟩, ⟨0, .spawn { entry := 32, name := "third" }⟩]

/-- The tick of the first processor wakes threads 1 and 4. Thread 1 outranks thread 5, which goes
back to its level behind threads 6 and 4. A tick of the second processor wakes nobody, and its idle
thread gives way to thread 6. -/
theorem Machine.ticksExactly_of_sleepersDue :
    (twoProcessors.run sleepersDue).kernel.initialized = true ∧
      0 < (twoProcessors.run sleepersDue).kernel.config.cpus ∧
      ((twoProcessors.run sleepersDue).kernel.roused 0).map (·.value) = [1, 4] ∧
      [(0 : Nat), 1].map (fun cpu =>
          let after := ((twoProcessors.run sleepersDue).moment ⟨cpu, .tick⟩).after
          ((after.running? cpu).map (·.value), (after.ready.threadsAt .normal).map (·.value))) =
        [(some 1, [6, 4, 5]), (some 6, [])] ∧
      (twoProcessors.run sleepersDue).TicksExactly (twoProcessors.history sleepersDue) 0 := by
  have begun : (twoProcessors.run sleepersDue).kernel.initialized = true := by decide +kernel
  have inside : 0 < (twoProcessors.run sleepersDue).kernel.config.cpus := by decide +kernel
  exact ⟨begun, inside, by decide +kernel, by decide +kernel,
    ticksExactly twoProcessors_made sleepersDue begun inside⟩

end ThreadScheduler
