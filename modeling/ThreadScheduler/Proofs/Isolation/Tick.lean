/-
Module: ThreadScheduler.Proofs.Isolation.Tick
Purpose: A tick of processor 0 with nothing seen but the threads above a cut. Threads below the cut
  change which branch the scheduler takes: it lets a thread go on when nobody is ready, and serves
  it anew when only threads below the cut are; an idle thread gives way to whoever woke up, and a
  thread below the cut because it is outranked. From above the branches look the same.
Main exports: Policy.any_best?_iff, Kernel.isOutranked_upper, Kernel.upper_tick
-/
import ThreadScheduler.Proofs.Isolation.Requests

namespace ThreadScheduler

namespace Policy

theorem better_outranks_iff {a b policy : Policy} :
    (better a b).Outranks policy ↔ a.Outranks policy ∨ b.Outranks policy := by
  unfold better
  by_cases less : b.Outranks a
  · rw [if_pos less]
    constructor
    · exact .inr
    · rintro (higher | higher)
      · exact Nat.lt_trans less higher
      · exact higher
  · rw [if_neg less]
    constructor
    · exact .inl
    · rintro (higher | higher)
      · exact higher
      · exact Nat.lt_of_le_of_lt (Nat.le_of_not_lt less) higher

/-- The best of several policies outranks another one exactly if one of them does. -/
theorem any_best?_iff {policies : List Policy} {policy : Policy} :
    (best? policies).any (fun best => best.Outranks policy) = true ↔
      ∃ p ∈ policies, p.Outranks policy := by
  induction policies with
  | nil => simp [best?]
  | cons first rest ih =>
    rw [List.exists_mem_cons_iff, ← ih]
    change (some ((best? rest).elim first first.better)).any _ = true ↔ _
    cases best? rest with
    | none => simp
    | some best => simp [better_outranks_iff]

end Policy

namespace Upper

variable {u : Upper} {id : ThreadId} {thread : Thread}

/-- A thread that gives way to nobody is served anew. -/
theorem dispatch_makeReady_of_empty (empty : ∀ policy, u.level policy = [])
    (found : u.record id = some thread) (runs : thread.state = .running)
    (free : thread.waitingOn = none) :
    (u.makeReady id).dispatch = { u with running := some (id, u.quantum) } := by
  have first : (u.makeReady id).level thread.policy = id :: [] := by
    simp [makeReady, found, empty]
  have above (p : Policy) (outranks : p.Outranks thread.policy) :
      (u.makeReady id).level p = [] := by
    have other : ¬ thread.policy = p := by
      rintro rfl
      exact Nat.lt_irrefl _ outranks
    simp [makeReady, found, empty, other]
  rw [dispatch_of_first first above]
  apply Upper.ext
  case record =>
    funext t
    by_cases same : t = id
    · subst same
      simp [makeReady, amend, found, ← runs, ← free]
    · simp [makeReady, amend, same]
  case level =>
    funext p
    by_cases own : thread.policy = p
    · simp [own, empty]
    · have other : ¬ p = thread.policy := fun same => own same.symm
      simp [makeReady, found, own, other]
  all_goals rfl

end Upper

namespace Kernel

variable {k : Kernel} {cut : Nat} {id : ThreadId} {thread : Thread} {slot : CpuSlot}
  {slice : Duration} {course : Course} {reply : Reply} {policy : Policy}

/-! ### Who wakes up -/

theorem policyOf?_makeReady (k : Kernel) (id t : ThreadId) :
    (k.makeReady id).1.policyOf? t = k.policyOf? t := by
  unfold policyOf?
  rw [amends_makeReady]
  split
  · rename_i same
    rw [same, Option.map_map]
    rfl
  · rfl

theorem policyOf?_makeReadyAll (ids : List ThreadId) (k : Kernel) (t : ThreadId) :
    (k.makeReadyAll ids).policyOf? t = k.policyOf? t := by
  induction ids generalizing k with
  | nil => rfl
  | cons id rest ih => exact (ih (k.makeReady id).1).trans (policyOf?_makeReady k id t)

/-- The best policy among the threads that wake up outranks another one if one of them does. -/
theorem any_bestWoken_iff :
    (k.bestWoken 0).any (fun best => best.Outranks policy) = true ↔
      ∃ id ∈ k.woken, ∃ p, k.policyOf? id = some p ∧ p.Outranks policy := by
  have best : k.bestWoken 0 = Policy.best? (k.woken.filterMap k.timeKept.policyOf?) := rfl
  have policies (id : ThreadId) : k.timeKept.policyOf? id = k.policyOf? id :=
    policyOf?_makeReadyAll k.woken _ id
  rw [best, Policy.any_best?_iff]
  simp only [List.mem_filterMap, policies]
  constructor
  · rintro ⟨p, ⟨id, due, ranks⟩, outranks⟩
    exact ⟨id, due, p, ranks, outranks⟩
  · rintro ⟨id, due, p, ranks, outranks⟩
    exact ⟨p, ⟨id, due, ranks⟩, outranks⟩

/-- A thread above the cut is outranked by a thread that wakes up exactly if it is seen to be. -/
theorem isOutranked_upper (h : k.Placement) (punctual : k.sleeping.Punctual)
    (high : k.high? cut id = some thread) :
    (k.upper cut).isOutranked k.timer.interrupt.1 id = true ↔
      (k.bestWoken 0).any (fun best => best.Outranks thread.policy) = true := by
  obtain ⟨_, _, above⟩ := high?_eq_some_iff.mp high
  have record : (k.upper cut).record = k.high? cut := rfl
  rw [any_bestWoken_iff, Upper.isOutranked, due_upper punctual]
  simp only [List.any_eq_true, List.mem_filter, record, high, Option.any_some, Option.any_eq_true,
    decide_eq_true_eq]
  constructor
  · rintro ⟨t, ⟨due, _⟩, woken, seen, outranks⟩
    obtain ⟨_, found, _⟩ := high?_eq_some_iff.mp seen
    exact ⟨t, due, woken.policy, by simp [policyOf?, found], outranks⟩
  · rintro ⟨t, due, p, ranks, outranks⟩
    obtain ⟨woken, found, rfl⟩ := Option.map_eq_some_iff.mp ranks
    have seen : k.high? cut t = some woken :=
      high?_eq_some_iff.mpr
        ⟨h.busy_of_place (h.place?_of_woken due), found, Nat.lt_trans outranks above⟩
    exact ⟨t, ⟨due, by rw [seen]; rfl⟩, woken, seen, outranks⟩

/-- If nobody who wakes up outranks a thread below the cut, nobody above the cut wakes up. -/
theorem due_eq_nil (punctual : k.sleeping.Punctual)
    (below : ¬ thread.policy.rank < cut)
    (spared : ¬ (k.bestWoken 0).any (fun best => best.Outranks thread.policy) = true) :
    (k.upper cut).due k.timer.interrupt.1 = [] := by
  rw [due_upper punctual]
  apply List.filter_eq_nil_iff.mpr
  intro t due seen
  obtain ⟨woken, high⟩ := Option.isSome_iff_exists.mp seen
  obtain ⟨_, found, above⟩ := high?_eq_some_iff.mp high
  apply spared
  rw [any_bestWoken_iff]
  exact ⟨t, due, woken.policy, by simp [policyOf?, found],
    Nat.lt_of_lt_of_le above (Nat.le_of_not_lt below)⟩

theorem get?_makeReadyAll_of_not_mem (ids : List ThreadId) (k : Kernel) (outside : id ∉ ids) :
    (k.makeReadyAll ids).threads.get? id = k.threads.get? id := by
  induction ids generalizing k with
  | nil => rfl
  | cons first rest ih =>
    rw [List.mem_cons, not_or] at outside
    exact (ih (k.makeReady first).1 outside.2).trans ((amends_makeReady k first).other outside.1)

/-- A running thread does not wake up. -/
theorem Placement.get?_timeKept (h : k.Placement) {cpu : Nat} (runs : k.running? cpu = some id) :
    k.timeKept.threads.get? id = k.threads.get? id :=
  get?_makeReadyAll_of_not_mem k.woken _ fun due =>
    h.not_running_of_place (h.place?_of_woken due) nofun cpu runs

theorem cpus_timeKept (k : Kernel) : k.timeKept.cpus = k.cpus := cpus_beforeCharge k 0

theorem isIdle_timeKept (k : Kernel) (id : ThreadId) : k.timeKept.isIdle id = k.isIdle id := by
  rw [isIdle, cpus_timeKept, isIdle]

/-! ### The verdict -/

/-- Once scheduling has begun, a tick does what it means for the running thread. -/
theorem ticks_of_granted (h : k.Regular) (begun : k.initialized = true)
    (transition : Transition k 0 .tick (.ok reply) course) :
    reply = .done ∧ ∃ slot, k.cpus[0]? = some slot ∧
      course = match k.timeKept.tickVerdict slot k.timer.interrupt.1 (k.bestWoken 0) with
        | .keep slice =>
            .stay { k.timeKept with cpus := k.timeKept.cpus.modify 0 ({ · with slice }) }
        | .preempt id => .dispatch (k.timeKept.makeReady id).1
        | .replace => .dispatch k.timeKept := by
  have found := List.getElem?_eq_getElem h.orderly.cpus_pos
  obtain ⟨done, same⟩ := transition.course_of_tick begun found
  exact ⟨done, _, found, same⟩

/-- The slice of an active thread is charged; it gives way when the slice is used up or when it is
outranked, but only if somebody is ready. -/
theorem tickVerdict_of_active {elapsed : Duration} {woken : Option Policy}
    (current : slot.running = some id) (found : k.threads.get? id = some thread)
    (busy : k.isIdle id = false) (runs : thread.state = .running) :
    k.tickVerdict slot elapsed woken =
      if slot.slice - elapsed ≠ .zero ∧
          ¬ woken.any (fun best => best.Outranks thread.policy) = true then
        .keep (slot.slice - elapsed)
      else if k.ready.isEmpty then .keep k.config.quantum else .preempt id := by
  simp [tickVerdict, current, found, busy, runs]

/-- A thread that ended meanwhile is left. -/
theorem tickVerdict_of_ended {elapsed : Duration} {woken : Option Policy}
    (current : slot.running = some id) (ended : k.stateOf? id = some .terminated) :
    k.tickVerdict slot elapsed woken = .replace := by
  obtain ⟨thread, found, state⟩ := Option.map_eq_some_iff.mp ended
  simp [tickVerdict, current, found, state]

/-- If nobody is ready, nobody is seen to be. -/
theorem level_of_isEmpty (records : k.Records) (empty : k.ready.isEmpty = true) (policy : Policy) :
    (k.upper cut).level policy = [] :=
  level_upper_eq_nil_iff.mpr fun _ =>
    ReadyQueue.threadsAt_of_toList_eq_nil records.ordered (ReadyQueue.isEmpty_iff.mp empty) policy

/-- A thread that is not seen goes on only if nobody who is seen is ready. -/
theorem empty_of_kept (h : k.Regular) (punctual : k.sleeping.Punctual) (calm : (k.upper cut).Calm)
    (unseen : (k.upper cut).running = none) (found : k.cpus[0]? = some slot)
    (verdict : k.timeKept.tickVerdict slot k.timer.interrupt.1 (k.bestWoken 0) = .keep slice)
    (policy : Policy) : ((k.upper cut).pass k.timer.interrupt.1).level policy = [] := by
  have idle_or_alone : k.timeKept.ready.isEmpty = true →
      ((k.upper cut).pass k.timer.interrupt.1).level policy = [] := by
    intro empty
    rw [← upper_timeKept cut h.placement punctual]
    exact level_of_isEmpty h.placement.timeKept.records empty policy
  unfold tickVerdict at verdict
  split at verdict
  · cases verdict
  · rename_i id current
    have runs : k.running? 0 = some id := by simp [running?, found, current]
    rw [h.placement.get?_timeKept runs, isIdle_timeKept] at verdict
    split at verdict
    · cases verdict
    · rename_i thread known
      split at verdict
      · cases verdict
      · split at verdict
        · split at verdict
          · exact idle_or_alone ‹_›
          · cases verdict
        · rename_i busy
          have below : ¬ thread.policy.rank < cut := fun above => by
            have high := high?_eq_some_iff.mpr ⟨by simpa using busy, known, above⟩
            cases high.symm.trans (unseen_of_running unseen runs)
          dsimp only at verdict
          split at verdict
          · rename_i goes
            unfold Upper.pass
            rw [due_eq_nil punctual below goes.2]
            exact calm unseen policy
          · split at verdict
            · exact idle_or_alone ‹_›
            · cases verdict

/-! ### What is seen of a tick -/

/-- What is left of the slice of a running thread is seen if the thread is. -/
theorem upper_of_slice (runs : k.running? 0 = some id) (slice : Duration) :
    Kernel.upper { k with cpus := k.cpus.modify 0 ({ · with slice }) } cut =
      { k.upper cut with
        running := if (k.high? cut id).isSome then some (id, slice) else none } := by
  have record (t : ThreadId) : Kernel.high?
      { k with cpus := k.cpus.modify 0 ({ · with slice }) } cut t = k.high? cut t :=
    high?_congr rfl (isIdle_congr (idle?_of_modify rfl fun _ => rfl))
  obtain ⟨slot, found, current⟩ := Option.bind_eq_some_iff.mp runs
  apply Upper.ext
  case record => exact funext record
  case sleepers => simp only [upper, record]
  case running =>
    by_cases seen : (k.high? cut id).isSome
    · simp [upper, record, running?, Kernel.slice, found, current, seen]
    · have unseen : k.high? cut id = none := by simpa using seen
      simp [upper, record, running?, found, current, unseen]
  all_goals rfl

theorem running?_timeKept (k : Kernel) (cpu : Nat) : k.timeKept.running? cpu = k.running? cpu := by
  rw [running?, cpus_timeKept, running?]

/-- A running thread is seen as before when time was kept. -/
theorem high?_timeKept (h : k.Placement) (runs : k.running? 0 = some id) :
    k.timeKept.high? cut id = k.high? cut id :=
  high?_congr (h.get?_timeKept runs) (isIdle_timeKept k id)

/-- A tick while an unseen thread runs gives the processor to somebody who is seen, if there is
somebody. -/
theorem upper_tick_of_unseen (h : k.Regular) (begun : k.initialized = true)
    (punctual : k.sleeping.Punctual) (calm : (k.upper cut).Calm)
    (unseen : (k.upper cut).running = none) (current : k.running? 0 = some id)
    (transition : Transition k 0 .tick (.ok reply) course) :
    (course.kernel 0).upper cut = ((k.upper cut).pass k.timer.interrupt.1).dispatch := by
  obtain ⟨_, slot, found, rfl⟩ := ticks_of_granted h begun transition
  have timed := upper_timeKept cut h.placement punctual
  have regular := transition.regular h
  have here := (running?_timeKept k 0).trans current
  have low : k.timeKept.high? cut id = none :=
    (high?_timeKept h.placement current).trans (unseen_of_running unseen current)
  cases verdict : k.timeKept.tickVerdict slot k.timer.interrupt.1 (k.bestWoken 0) with
  -- The thread stays only if nobody above the cut waits.
  | keep slice =>
    have empty := empty_of_kept h punctual calm unseen found verdict
    rw [Upper.dispatch_of_empty empty, ← timed]
    refine (upper_of_slice here slice).trans ?_
    rw [low]
    rfl
  | preempt other =>
    obtain ⟨leaves, busy, _⟩ := tickVerdict_eq_preempt verdict
    have runs : k.running? 0 = some other := by simp [running?, found, leaves]
    obtain rfl := Option.some.inj (current.symm.trans runs)
    rw [verdict] at regular
    have ready := upper_makeReady cut h.placement.timeKept.records busy
    -- A thread that becomes ready below the cut is not seen from above.
    have still : (k.timeKept.makeReady id).1.high? cut id = none := by
      rw [high?_of_amends (amends_makeReady _ _) (fun _ => rfl) (isIdle_makeReady _ _), if_pos rfl,
        low]
      rfl
    rw [Upper.makeReady_of_unseen low, timed] at ready
    rw [← ready]
    apply regular.1.upper_redispatch
    intro t runs seen
    rw [running?_makeReady, here] at runs
    obtain rfl := Option.some.inj runs
    rw [still] at seen
    cases seen
  | replace =>
    rw [verdict] at regular
    rw [← timed]
    apply regular.1.upper_redispatch
    intro t runs seen
    obtain rfl := Option.some.inj (here.symm.trans runs)
    rw [low] at seen
    cases seen

/-- A tick while a thread runs that ended meanwhile takes the processor away from it. -/
theorem upper_tick_of_ended (h : k.Regular) (begun : k.initialized = true)
    (punctual : k.sleeping.Punctual) (current : k.running? 0 = some id)
    (ended : k.stateOf? id ≠ some .running)
    (transition : Transition k 0 .tick (.ok reply) course) :
    (course.kernel 0).upper cut = ((k.upper cut).pass k.timer.interrupt.1).dispatch := by
  obtain ⟨_, slot, found, rfl⟩ := ticks_of_granted h begun transition
  have regular := transition.regular h
  have runs : slot.running = some id := by simpa [running?, found] using current
  have kept : k.timeKept.stateOf? id = k.stateOf? id := by
    rw [stateOf?, h.placement.get?_timeKept current, stateOf?]
  have state : k.stateOf? id = some .terminated := by
    rcases h.placement.occupied.place_of_running current with stands | stands
    · exact absurd (stateOf?_eq_some_running_iff.mpr stands) ended
    · obtain ⟨thread, known, place⟩ := exists_thread_of_place? stands
      simp [stateOf?, known, Thread.place_eq_ended_iff.mp place]
  rw [tickVerdict_of_ended runs (kept.trans state)] at regular ⊢
  rw [← upper_timeKept cut h.placement punctual]
  have here := (running?_timeKept k 0).trans current
  exact upper_redispatch_of_moved cut regular.1 here (kept ▸ ended)

/-- A tick while a thread above the cut runs. -/
theorem upper_tick_of_active (h : k.Regular) (begun : k.initialized = true)
    (punctual : k.sleeping.Punctual) (current : k.running? 0 = some id)
    (high : k.high? cut id = some thread) (runs : thread.state = .running)
    (transition : Transition k 0 .tick (.ok reply) course) :
    (course.kernel 0).upper cut =
      if k.slice 0 - k.timer.interrupt.1 ≠ .zero ∧
          ¬ (k.upper cut).isOutranked k.timer.interrupt.1 id then
        { (k.upper cut).pass k.timer.interrupt.1 with
          running := some (id, k.slice 0 - k.timer.interrupt.1) }
      else (((k.upper cut).pass k.timer.interrupt.1).makeReady id).dispatch := by
  obtain ⟨_, slot, found, rfl⟩ := ticks_of_granted h begun transition
  have regular := transition.regular h
  have timed := upper_timeKept cut h.placement punctual
  obtain ⟨busy, known, _⟩ := high?_eq_some_iff.mp high
  have present := (h.placement.get?_timeKept current).trans known
  have idle := (isIdle_timeKept k id).trans busy
  have here := (running?_timeKept k 0).trans current
  have seen : k.timeKept.high? cut id = some thread :=
    (high?_timeKept h.placement current).trans high
  have left : k.slice 0 = slot.slice := by simp [Kernel.slice, found]
  have occupied : slot.running = some id := by simpa [running?, found] using current
  rw [tickVerdict_of_active occupied present idle runs] at regular ⊢
  rw [left]
  simp only [isOutranked_upper h.placement punctual high]
  by_cases goes : slot.slice - k.timer.interrupt.1 ≠ .zero ∧
      ¬ (k.bestWoken 0).any (fun best => best.Outranks thread.policy) = true
  · rw [if_pos goes, if_pos goes, ← timed]
    refine (upper_of_slice here _).trans ?_
    rw [seen]
    rfl
  · rw [if_neg goes] at regular ⊢
    rw [if_neg goes, ← timed]
    by_cases empty : k.timeKept.ready.isEmpty = true
    · -- The thread goes on with a new slice; it is as if it had been queued and served.
      have records := h.placement.timeKept.records
      have free : thread.waitingOn = none := by
        have waits := h.placement.records.waits known
        simpa [runs] using waits
      rw [if_pos empty, Upper.dispatch_makeReady_of_empty (level_of_isEmpty records empty) seen runs
        free]
      refine (upper_of_slice here _).trans ?_
      rw [seen]
      rfl
    · rw [if_neg empty] at regular ⊢
      rw [← upper_makeReady cut h.placement.timeKept.records idle]
      exact upper_redispatch_of_moved cut regular.1 ((running?_makeReady _ _ _).trans here)
        (stateOf?_makeReady_ne_running _ _)

/-- A tick is seen as such, whatever runs. -/
theorem upper_tick (h : k.Regular) (begun : k.initialized = true)
    (punctual : k.sleeping.Punctual) (calm : (k.upper cut).Calm)
    (transition : Transition k 0 .tick (.ok reply) course) :
    (.ok reply, (course.kernel 0).upper cut) =
      (k.upper cut).perform k.timer.interrupt.1 .tick := by
  obtain ⟨rfl, _⟩ := ticks_of_granted h begun transition
  refine congrArg _ ?_
  obtain ⟨id, current⟩ := h.exists_running begun
  unfold Upper.tick
  cases active : (k.upper cut).active? with
  | none =>
    cases runs : (k.upper cut).running with
    | none => exact upper_tick_of_unseen h begun punctual calm runs current transition
    | some seated =>
      obtain ⟨here, _, _⟩ := upper_running_iff.mp runs
      refine upper_tick_of_ended h begun punctual here (fun state => ?_) transition
      cases active.symm.trans (active?_eq_some_iff.mpr ⟨runs, state⟩)
  | some seated =>
    obtain ⟨other, slice⟩ := seated
    obtain ⟨runs, state⟩ := active?_eq_some_iff.mp active
    obtain ⟨here, seen, rfl⟩ := upper_running_iff.mp runs
    obtain ⟨thread, high⟩ := Option.isSome_iff_exists.mp seen
    obtain ⟨_, found, _⟩ := high?_eq_some_iff.mp high
    exact upper_tick_of_active h begun punctual here high (by simpa [stateOf?, found] using state)
      transition

end Kernel

end ThreadScheduler
