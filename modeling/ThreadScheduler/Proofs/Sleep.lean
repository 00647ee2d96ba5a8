/-
Module: ThreadScheduler.Proofs.Sleep
Purpose: A thread sleeps until the moment it asked for. Nothing but the clock of processor 0 wakes
  it, and that clock wakes it with the first tick that reaches the moment; what other threads do to
  the timeline in between does not move its wake time.
Main exports: Kernel.SleepsUntil, Moment.Retimes, Kernel.Reachable.punctual, Moment.LetsSleep,
  Machine.sleepsExactly
-/
import ThreadScheduler.Proofs.History
import ThreadScheduler.Proofs.Timeline.Punctual

namespace ThreadScheduler

/-- An entry that is the only one of its kind is what is found of its kind. -/
private theorem filter_eq_singleton {α β : Type} [DecidableEq β] {key : α → β} {list : List α}
    {entry : α} (once : (list.map key).Nodup) (present : entry ∈ list) :
    list.filter (key · = key entry) = [entry] := by
  induction list with
  | nil => cases present
  | cons first rest ih =>
    obtain ⟨fresh, later⟩ := List.nodup_cons.mp once
    rcases List.mem_cons.mp present with rfl | behind
    · have others : rest.filter (key · = key entry) = [] := by
        apply List.filter_eq_nil_iff.mpr
        intro other there same
        exact fresh (List.mem_map.mpr ⟨other, there, of_decide_eq_true same⟩)
      rw [List.filter_cons_of_pos (by simp), others]
    · have distinct : key first ≠ key entry :=
        fun same => fresh (List.mem_map.mpr ⟨entry, behind, same.symm⟩)
      rw [List.filter_cons_of_neg (by simpa using distinct), ih later behind]

namespace Kernel

variable {k k' : Kernel} {here : Nat} {t id next : ThreadId} {wake : Instant}

/-- A thread sleeps and is listed once, with a given wake time. -/
structure SleepsUntil (k : Kernel) (t : ThreadId) (wake : Instant) : Prop where
  asleep : k.stateOf? t = some .sleeping
  listed : k.sleeping.sleepers.filter (·.1 = t) = [(t, wake)]

instance (k : Kernel) (t : ThreadId) (wake : Instant) : Decidable (k.SleepsUntil t wake) :=
  decidable_of_iff (k.stateOf? t = some .sleeping ∧ _) ⟨fun h => ⟨h.1, h.2⟩, fun h => ⟨h.1, h.2⟩⟩

theorem SleepsUntil.mem (h : k.SleepsUntil t wake) : (t, wake) ∈ k.sleeping.sleepers := by
  have present : (t, wake) ∈ k.sleeping.sleepers.filter (·.1 = t) := by
    rw [h.listed]
    exact List.mem_singleton_self _
  exact (List.mem_filter.mp present).1

theorem SleepsUntil.wake_eq {other : Instant} (h : k.SleepsUntil t wake)
    (listed : (t, other) ∈ k.sleeping.sleepers) : other = wake := by
  have only : (t, other) ∈ k.sleeping.sleepers.filter (·.1 = t) :=
    List.mem_filter.mpr ⟨listed, decide_eq_true rfl⟩
  rw [h.listed] at only
  exact congrArg Prod.snd (List.mem_singleton.mp only)

/-- When the moment of a thread has come, the thread is off the timeline. -/
theorem SleepsUntil.off (h : k.SleepsUntil t wake) (punctual : k.sleeping.Punctual)
    {elapsed : Duration} (late : ¬ (k.sleeping.advance elapsed).drain.2.now < wake) :
    t ∉ (k.sleeping.advance elapsed).drain.2.threads := by
  intro still
  rw [← Timeline.sleepers_threads] at still
  obtain ⟨⟨_, other⟩, present, rfl⟩ := List.mem_map.mp still
  obtain ⟨listed, future⟩ := punctual.mem_sleepers_passed.mp present
  obtain rfl := h.wake_eq listed
  exact late future

/-- A thread that a tick of processor 0 takes off the timeline is woken by it. -/
theorem SleepsUntil.mem_woken (h : k.SleepsUntil t wake)
    (off : t ∉ (k.sleeping.advance k.timer.interrupt.1).drain.2.threads) : t ∈ k.woken := by
  have sleeps : t ∈ k.sleeping.threads := by
    rw [← Timeline.sleepers_threads]
    exact List.mem_map_of_mem h.mem
  rw [← Timeline.threads_advance k.sleeping k.timer.interrupt.1, ← Timeline.threads_drain] at sleeps
  exact (List.mem_append.mp sleeps).resolve_right off

/-- A thread that is on the timeline sleeps until the time that is listed for it. -/
theorem Placement.sleepsUntil (h : k.Placement) (listed : (t, wake) ∈ k.sleeping.sleepers) :
    k.SleepsUntil t wake where
  asleep := by
    have sleeps : t ∈ k.sleeping.threads := by
      rw [← Timeline.sleepers_threads]
      exact List.mem_map_of_mem listed
    obtain ⟨thread, found, place⟩ := exists_thread_of_place? (h.mem_timeline_iff.mp sleeps)
    exact Option.map_eq_some_iff.mpr ⟨thread, found, Thread.place_eq_timeline_iff.mp place⟩
  listed := by
    have once : (k.sleeping.sleepers.map (·.1)).Nodup := by
      rw [Timeline.sleepers_threads]
      exact (h.listed .timeline).once
    exact filter_eq_singleton once listed

/-- Becoming ready changes the state of no other thread. -/
theorem stateOf?_makeReady (k : Kernel) (id t : ThreadId) :
    (k.makeReady id).1.stateOf? t =
      if t = id then (k.stateOf? t).map fun _ => .ready else k.stateOf? t := by
  unfold stateOf?
  rw [amends_makeReady]
  split
  · rename_i same
    rw [same, Option.map_map, Option.map_map]
    rfl
  · rfl

/-- Becoming ready takes nobody off the timeline. -/
theorem sleeping_makeReady (k : Kernel) (id : ThreadId) :
    (k.makeReady id).1.sleeping = k.sleeping := by
  obtain ⟨_, _, same⟩ := makeReady_frame k id
  rw [same]

theorem stateOf?_makeReady_of_ready (ready : k.stateOf? t = some .ready) :
    (k.makeReady id).1.stateOf? t = some .ready := by
  rw [stateOf?_makeReady, ready]
  split <;> rfl

/-- Several threads that become ready are ready, and a thread that is ready stays so. -/
theorem stateOf?_makeReadyAll (ids : List ThreadId) (known : (k.stateOf? t).isSome)
    (woken : t ∈ ids ∨ k.stateOf? t = some .ready) :
    (k.makeReadyAll ids).stateOf? t = some .ready := by
  induction ids generalizing k with
  | nil => exact woken.resolve_left List.not_mem_nil
  | cons id rest ih =>
    have head := stateOf?_makeReady k id t
    by_cases same : t = id
    · obtain ⟨state, is⟩ := Option.isSome_iff_exists.mp known
      have ready : (k.makeReady id).1.stateOf? t = some .ready := by
        rw [head, if_pos same, is]
        rfl
      exact ih (by rw [ready]; rfl) (.inr ready)
    · rw [if_neg same] at head
      refine ih (head ▸ known) ?_
      rw [head]
      exact woken.imp_left fun member => (List.mem_cons.mp member).resolve_left same

/-- A thread that is ready when a processor gets its next thread is ready or running afterwards. -/
theorem Installs.stateOf?_of_ready (installs : k.Installs k' here next)
    (ready : k.stateOf? t = some .ready) :
    k'.stateOf? t = some .ready ∨ k'.stateOf? t = some .running := by
  have kept : (k.vacate here).threads.get? t = k.threads.get? t := by
    rw [get?_vacate, if_neg]
    rintro ⟨_, runs⟩
    cases ready.symm.trans runs
  obtain ⟨thread, found, state⟩ := Option.map_eq_some_iff.mp ready
  rw [stateOf?, installs.amends]
  split
  · rename_i same
    exact .inr (by rw [← same, kept, found]; rfl)
  · exact .inl (by rw [kept, found, Option.map_some, state])

/-- Taking a thread out of its container concerns the timeline only if it is the thread's. -/
private theorem sleeping_detached (k : Kernel) (thread : Thread) :
    (k.detached thread).sleeping = k.sleeping ∨
      k.sleeping.remove thread.id = some (k.detached thread).sleeping := by
  by_cases asleep : thread.state = .sleeping
  · unfold detached detach
    rw [asleep]
    cases taken : k.sleeping.remove thread.id with
    | none => exact .inl rfl
    | some rest => exact .inr rfl
  · refine .inl ?_
    unfold detached detach
    cases state : thread.state with
    | sleeping => exact absurd state asleep
    | ready => cases k.ready.remove thread.id <;> rfl
    | running => cases k.hostOf? thread.id <;> rfl
    | terminated => rfl
    | blocked =>
      cases thread.waitingOn with
      | none => rfl
      | some m =>
        cases found : k.mutexes.get? m with
        | none => simp [found]
        | some mutex => cases withdrawn : mutex.withdraw thread.id <;> simp [found, withdrawn]

/-- The end of a thread concerns the timeline only if the thread sleeps. -/
theorem sleeping_ended (k : Kernel) (thread : Thread) :
    (k.ended thread).sleeping = k.sleeping ∨
      k.sleeping.remove thread.id = some (k.ended thread).sleeping := by
  have same : (k.ended thread).sleeping = (k.detached thread).sleeping := by
    obtain ⟨_, _, _, passed⟩ :=
      passAll_frame thread.id ((k.detached thread).mutexes.ownedBy thread.id) (k.detached thread)
    unfold ended
    rw [passed]
    rfl
  rw [same]
  exact k.sleeping_detached thread

end Kernel

/-- What an operation does to the timeline. -/
inductive Moment.Retimes (x : Moment) : Prop where
  | kept (same : x.after.sleeping = x.before.sleeping)
  /-- The caller goes to sleep. -/
  | slept {t : ThreadId} {wake : Instant} (future : x.before.sleeping.now < wake)
      (same : x.after.sleeping = x.before.sleeping.enqueue t wake)
  /-- Time passes, and those that are due are woken. -/
  | passed (ticks : x.operation = .tick) (first : x.cpu = 0)
      (same : x.after.sleeping = (x.before.sleeping.advance x.before.timer.interrupt.1).drain.2)
      (wakes : ∀ t ∈ x.before.woken, (x.before.stateOf? t).isSome →
        x.after.stateOf? t = some .ready ∨ x.after.stateOf? t = some .running)
  /-- A sleeping thread ends. -/
  | left {t : ThreadId} (ends : x.Ends t)
      (taken : x.before.sleeping.remove t = some x.after.sleeping)

namespace Moment.Takes

open Kernel

variable {x : Moment} {course : Course} {t : ThreadId} {wake : Instant}

/-- Giving a processor its next thread leaves the timeline alone. -/
theorem sleeping (h : x.Takes course) : x.after.sleeping = course.moved.sleeping := by
  cases course with
  | stay k => rw [h.after]; rfl
  | dispatch k =>
    obtain ⟨next, installs⟩ := h.exists_installs
    obtain ⟨_, _, _, _, same⟩ := installs.frame
    rw [same]
    rfl

/-- A thread that has become ready by an operation is ready or running after it. -/
theorem stateOf?_of_ready (h : x.Takes course) (ready : course.moved.stateOf? t = some .ready) :
    x.after.stateOf? t = some .ready ∨ x.after.stateOf? t = some .running := by
  cases course with
  | stay k => rw [h.after]; exact .inl ready
  | dispatch k =>
    obtain ⟨next, installs⟩ := h.exists_installs
    exact installs.stateOf?_of_ready ready

private theorem retimes_of_charged (h : x.Takes course) (ticks : x.operation = .tick)
    (sleeping : course.moved.sleeping = (x.before.beforeCharge x.cpu).sleeping)
    (ready : ∀ t, (x.before.beforeCharge x.cpu).stateOf? t = some .ready →
      course.moved.stateOf? t = some .ready) : x.Retimes := by
  have same := h.sleeping.trans sleeping
  by_cases first : x.cpu = 0
  · have timed : x.before.beforeCharge x.cpu = x.before.timeKept := if_pos first
    rw [timed] at same ready
    refine .passed ticks first (same.trans ?_) fun t due known => h.stateOf?_of_ready (ready t ?_)
    · obtain ⟨_, _, frame⟩ := makeReadyAll_frame x.before.woken
        { x.before with
          timer := x.before.timer.interrupt.2
          sleeping := (x.before.sleeping.advance x.before.timer.interrupt.1).drain.2 }
      unfold timeKept
      rw [frame]
    · exact stateOf?_makeReadyAll x.before.woken known (.inl due)
  · have untimed : x.before.beforeCharge x.cpu = x.before := if_neg first
    rw [untimed] at same
    exact .kept same

private theorem retimes_of_ended {thread : Thread} (h : x.Takes course)
    (moved : course.moved = x.before.ended thread)
    (found : x.before.threads.get? t = some thread) (alive : thread.state ≠ .terminated) :
    x.Retimes := by
  have same := h.sleeping
  rw [moved] at same
  rcases x.before.sleeping_ended thread with kept | taken
  · exact .kept (same.trans kept)
  · rw [← same, h.regular.placement.records.handle found] at taken
    exact .left (h.ends_of_endsOnRequest moved found alive) taken

/-- The timeline changes in three ways only. -/
theorem retimes (h : x.Takes course) : x.Retimes := by
  obtain ⟨k, here, operation, result, after⟩ := x
  have transition := h.transition
  dsimp only at transition
  cases transition with
  | fellAsleep _ _ _ future => exact .slept future h.sleeping
  | kept => exact h.retimes_of_charged rfl rfl fun _ ready => ready
  | replaced => exact h.retimes_of_charged rfl rfl fun _ ready => ready
  | preempted =>
    exact h.retimes_of_charged rfl (sleeping_makeReady _ _) fun _ ready =>
      stateOf?_makeReady_of_ready ready
  | endedElsewhere _ _ found alive => exact h.retimes_of_ended rfl found alive
  | endedHere _ _ found alive => exact h.retimes_of_ended rfl found alive
  | yielded => exact .kept (h.sleeping.trans (sleeping_makeReady _ _))
  | handedOff => exact .kept (h.sleeping.trans (sleeping_makeReady _ _))
  | @spawned spec id admitted _ admits =>
    have queued : (admitted.enqueueReady id spec.policy).1.sleeping = admitted.sleeping := by
      obtain ⟨_, _, same⟩ := enqueueReady_frame admitted id spec.policy
      rw [same]
    obtain ⟨_, _, _, _, _, _, _, rfl⟩ := admits.granted
    exact .kept (h.sleeping.trans queued)
  | booted _ _ _ adopted | idleRefused _ _ _ _ adopted =>
    obtain ⟨_, _, _, _, same⟩ := adopted.frame
    refine .kept (h.sleeping.trans ?_)
    rw [same]
    rfl
  | reaped =>
    obtain ⟨_, _, _, same⟩ := reaped_frame k
    refine .kept (h.sleeping.trans ?_)
    change k.reaped.sleeping = k.sleeping
    rw [same]
  | _ => exact .kept h.sleeping

/-- A punctual timeline stays punctual. -/
theorem punctual (h : x.Takes course) (punctual : x.before.sleeping.Punctual) :
    x.after.sleeping.Punctual := by
  cases h.retimes with
  | kept same => exact same ▸ punctual
  | slept future same => exact same ▸ punctual.enqueue future
  | passed _ _ same => exact same ▸ punctual.passed _
  | left _ taken => exact punctual.removed taken

end Moment.Takes

/-- Nobody oversleeps, whatever the run. -/
theorem Kernel.Reachable.punctual {k : Kernel} (h : k.Reachable) : k.sleeping.Punctual := by
  induction h with
  | new made =>
    obtain ⟨_, rfl⟩ := eq_of_ofConfig made
    exact fun _ present => nomatch present
  | @step m reached cpu operation ih =>
    obtain ⟨course, takes⟩ := Machine.exists_course reached ⟨cpu, operation⟩
    exact takes.punctual ih

/-- How an operation treats a thread that sleeps until a moment: the thread sleeps on as long as the
moment has not come, and if the moment has come, then by a tick of processor 0, which has woken the
thread. -/
structure Moment.LetsSleep (x : Moment) (t : ThreadId) (wake : Instant) : Prop where
  sleeps : x.after.sleeping.now < wake → x.after.SleepsUntil t wake
  wakes : ¬ x.after.sleeping.now < wake →
    x.operation = .tick ∧ x.cpu = 0 ∧ t ∉ x.after.sleeping.threads ∧
      (x.after.stateOf? t = some .ready ∨ x.after.stateOf? t = some .running)

namespace Moment.Takes

open Kernel

variable {x : Moment} {course : Course} {t : ThreadId} {wake : Instant}

/-- A thread that was asleep and does not end sleeps until its moment. -/
theorem letsSleep (h : x.Takes course) (punctual : x.before.sleeping.Punctual)
    (asleep : x.before.SleepsUntil t wake) (lives : ¬ x.Ends t) : x.LetsSleep t wake := by
  have listed := asleep.mem
  have early := punctual.now_lt_of_mem listed
  have stays (same : (t, wake) ∈ x.after.sleeping.sleepers) : x.LetsSleep t wake :=
    ⟨fun _ => h.regular_after.placement.sleepsUntil same,
      fun late => absurd ((h.punctual punctual).now_lt_of_mem same) late⟩
  cases h.retimes with
  | kept same => exact stays (same ▸ listed)
  | slept future same =>
    exact stays (same ▸ (punctual.mem_sleepers_enqueue future).mpr (.inr listed))
  | left ends taken =>
    have distinct : t ≠ _ := fun same => lives (same ▸ ends)
    exact stays ((punctual.mem_sleepers_removed taken distinct).mpr listed)
  | passed ticks first same wakes =>
    refine ⟨fun future => ?_, fun late => ?_⟩
    · refine h.regular_after.placement.sleepsUntil ?_
      rw [same] at future ⊢
      exact punctual.mem_sleepers_passed.mpr ⟨listed, future⟩
    · rw [same] at late
      have off := asleep.off punctual late
      refine ⟨ticks, first, same ▸ off, wakes t (asleep.mem_woken off) ?_⟩
      rw [asleep.asleep]
      rfl

/-- Who asks for a moment in the future and is not refused falls asleep. -/
theorem falls_asleep {reply : Reply} (h : x.Takes course)
    (punctual : x.before.sleeping.Punctual) (accepted : x.result = .ok reply)
    (asked : x.operation.wakeAt? x.before.sleeping.now = some wake)
    (future : x.before.sleeping.now < wake) :
    ∃ t, x.before.running? x.cpu = some t ∧ x.after.SleepsUntil t wake := by
  obtain ⟨k, here, operation, result, after⟩ := x
  have transition := h.transition
  dsimp only at transition accepted asked future
  cases transition with
  | stayedAwake _ same past =>
    obtain rfl := Option.some.inj (same.symm.trans asked)
    exact absurd future past
  | @fellAsleep _ moment t _ caller same =>
    obtain rfl := Option.some.inj (same.symm.trans asked)
    refine ⟨t, (caller_eq_ok_iff.mp caller).1, h.regular_after.placement.sleepsUntil ?_⟩
    rw [h.sleeping]
    exact (punctual.mem_sleepers_enqueue future).mpr (.inl ⟨rfl, rfl⟩)
  | refused | denied => cases accepted
  | answered _ _ inquiry => cases operation <;> first | exact inquiry.elim | cases asked
  | endedElsewhere _ requestsEnd | endedHere _ requestsEnd =>
    cases operation <;> first | exact requestsEnd.elim | cases asked
  | _ => cases asked

end Moment.Takes

namespace Machine

/-- A thread that sleeps goes on sleeping through a run until its moment comes or it ends. -/
theorem letsSleep_of_history {m : Machine} {requests : List Request} {t : ThreadId} {wake : Instant}
    {past future : List Moment} {x : Moment} (reached : m.kernel.Reachable)
    (asleep : m.kernel.SleepsUntil t wake) (split : m.history requests = past ++ x :: future)
    (early : ∀ y ∈ past, ¬ y.Ends t ∧ y.after.sleeping.now < wake) (lives : ¬ x.Ends t) :
    x.LetsSleep t wake := by
  induction requests generalizing m past with
  | nil => cases past <;> cases split
  | cons request rest ih =>
    obtain ⟨course, takes⟩ := exists_course reached request
    cases past with
    | nil =>
      obtain ⟨rfl, -⟩ := List.cons.inj split
      exact takes.letsSleep reached.punctual asleep lives
    | cons y others =>
      obtain ⟨rfl, later⟩ := List.cons.inj split
      obtain ⟨spared, soon⟩ := early _ List.mem_cons_self
      have next := (takes.letsSleep reached.punctual asleep spared).sleeps soon
      exact ih (reached.step request.cpu request.operation) next later
        fun z member => early z (List.mem_cons_of_mem _ member)

/-- How threads sleep from a machine on. -/
structure SleepsExactly (m : Machine) : Prop where
  /-- Each listed wake time is in the future. -/
  ahead : ∀ sleeper ∈ m.kernel.sleeping.sleepers, m.kernel.sleeping.now < sleeper.2
  /-- A thread that is granted sleep until a moment in the future sleeps, and is listed with that
  moment through whatever follows, until it ends or the moment comes. The moment comes with a tick
  of processor 0, and the tick that brings it wakes the thread. -/
  exact : ∀ (cpu : Nat) (operation : Operation) (reply : Reply) (wake : Instant),
    operation.wakeAt? m.kernel.sleeping.now = some wake →
    m.kernel.sleeping.now < wake →
    (m.execute cpu operation).result = .ok reply →
    ∃ t, m.kernel.running? cpu = some t ∧
      (m.execute cpu operation).machine.kernel.SleepsUntil t wake ∧
      ∀ (requests : List Request) (past future : List Moment) (x : Moment),
        (m.execute cpu operation).machine.history requests = past ++ x :: future →
        (∀ y ∈ past, ¬ y.Ends t ∧ y.after.sleeping.now < wake) →
        ¬ x.Ends t → x.LetsSleep t wake

/-- Sleep is exact in every kernel that a run leads to, whatever run follows: neither other
operations nor other sleepers wake a thread early, keep it asleep or move its wake time. -/
theorem sleepsExactly {m : Machine} (reached : m.kernel.Reachable) : m.SleepsExactly where
  ahead sleeper listed := reached.punctual.now_lt_of_mem listed
  exact cpu operation reply wake asked future accepted := by
    obtain ⟨course, takes⟩ := exists_course reached ⟨cpu, operation⟩
    obtain ⟨t, caller, asleep⟩ := takes.falls_asleep reached.punctual accepted asked future
    exact ⟨t, caller, asleep, fun requests past future x split early lives =>
      letsSleep_of_history (reached.step cpu operation) asleep split early lives⟩

/-- After the run `contention` thread 1 sleeps for two ticks. The second processor ticks, thread 8
goes to sleep behind it, thread 6 is terminated asleep, and processor 0 ticks twice. -/
theorem sleepsExactly_of_nap :
    let start := twoProcessors.run contention
    let night : List Request :=
      [⟨1, .tick⟩, ⟨0, .sleepUntil ⟨2500000⟩⟩, ⟨1, .terminate (.ofIndex 5)⟩, ⟨0, .tick⟩, ⟨0, .tick⟩]
    start.kernel.Reachable ∧
      (start.execute 0 (.sleepFor ⟨2000000⟩)).result = .ok .done ∧
      ((start.execute 0 (.sleepFor ⟨2000000⟩)).machine.history night).map
          (fun x => (x.after.sleeping.now.nanos, x.after.stateOf? (.ofIndex 0))) =
        [(0, some .sleeping), (0, some .sleeping), (0, some .sleeping), (1000000, some .sleeping),
          (2000000, some .running)] ∧
      start.SleepsExactly :=
  ⟨reachable_contention, by decide +kernel, by decide +kernel, sleepsExactly reachable_contention⟩

end Machine

end ThreadScheduler
