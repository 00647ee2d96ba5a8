/-
Module: ThreadScheduler.Proofs.Ticks.Charges
Purpose: What a tick does to the running thread of its processor and to those who wait. The thread
  is replaced exactly if it has ended, idles while somebody waits, or has to share the processor and
  does not outrank all who wait; whoever keeps the processor is charged or gets a new slice.
Main exports: Kernel.GivesWay, Moment.Charges, Moment.Ticks, Moment.Ticks.charges
-/
import ThreadScheduler.Proofs.Priority
import ThreadScheduler.Proofs.Retirement
import ThreadScheduler.Proofs.Ticks.Verdict

namespace ThreadScheduler

/-- The running thread of a processor is replaced by a tick: it was terminated, or it idles and
somebody waits, or it is neither, has used up its slice or is outranked by somebody who wakes, and
somebody waits whom it does not outrank. -/
inductive Kernel.GivesWay (k : Kernel) (here : Nat) (r : ThreadId) : Prop where
  | ended (state : k.stateOf? r = some .terminated)
  | idle (own : k.idle? here = some r) (waiting : ∃ policy, k.queued here policy ≠ [])
  | active (alive : k.stateOf? r ≠ some .terminated) (busy : k.idle? here ≠ some r)
      (spent : k.Spent here r) (rival : k.Rivalled here r)

/-- An active thread is replaced if it is to share its processor and somebody is there to take
it. -/
theorem Kernel.Active.givesWay_iff {k : Kernel} {here : Nat} {r : ThreadId}
    (active : k.Active here r) : k.GivesWay here r ↔ k.Spent here r ∧ k.Rivalled here r := by
  have alive : k.stateOf? r ≠ some .terminated := by
    rw [active.running]
    exact nofun
  constructor
  · intro gives
    cases gives with
    | ended state => exact absurd state alive
    | idle own => exact absurd own active.busy
    | active _ _ spent rival => exact ⟨spent, rival⟩
  · exact fun both => .active alive active.busy both.1 both.2

namespace Moment

/-- What a tick does to the thread `r` that the processor runs, and to those who wait. -/
structure Charges (x : Moment) (r : ThreadId) : Prop where
  replaced_iff : x.after.running? x.cpu ≠ some r ↔ x.before.GivesWay x.cpu r
  /-- An idle thread is not charged. -/
  slice : x.after.running? x.cpu = some r →
    x.after.slice x.cpu =
      if x.before.idle? x.cpu = some r then x.before.slice x.cpu
      else if x.before.slice x.cpu ≤ x.before.elapsed x.cpu then x.before.config.quantum
      else x.before.slice x.cpu - x.before.elapsed x.cpu
  kept : x.after.running? x.cpu = some r →
    ∀ policy, x.after.ready.threadsAt policy = x.before.queued x.cpu policy
  /-- Whoever takes the place of `r` is served first of all that wait then. -/
  served : ∀ next, next ≠ r → x.after.running? x.cpu = some next →
    x.after.slice x.cpu = x.before.config.quantum ∧
      ∃ waiting : ReadyQueue,
        (∀ policy, waiting.threadsAt policy = x.before.requeued x.cpu r policy) ∧
          (x.ServesFirst waiting next ∨ x.Idles waiting next)
  tail : x.after.running? x.cpu ≠ some r → x.before.Active x.cpu r →
    x.after.stateOf? r = some .ready ∧
      ∃ policy ahead, x.after.policyOf? r = some policy ∧
        x.after.ready.threadsAt policy = ahead ++ [r]

/-- A tick leaves a processor with its thread. -/
private structure Retains (x : Moment) (r : ThreadId) (slice : Duration) : Prop where
  runs : x.after.running? x.cpu = some r
  left : x.after.slice x.cpu = slice
  levels : ∀ policy, x.after.ready.threadsAt policy = x.before.queued x.cpu policy

/-- A tick lets a processor that runs `r` get its next thread. -/
private structure Seats (x : Moment) (r next : ThreadId) : Prop where
  runs : x.after.running? x.cpu = some next
  full : x.after.slice x.cpu = x.before.config.quantum
  served : ∃ waiting : ReadyQueue,
    (∀ policy, waiting.threadsAt policy = x.before.requeued x.cpu r policy) ∧ waiting.Ordered ∧
      (x.ServesFirst waiting next ∨ x.Idles waiting next)

/-- A processor in a kernel that schedules executes a tick while it runs `r`. -/
structure Ticks (x : Moment) (course : Course) (r : ThreadId) : Prop where
  takes : x.Takes course
  asked : x.operation = .tick
  done : ∃ reply, x.result = .ok reply
  begun : x.before.initialized = true
  punctual : x.before.sleeping.Punctual
  runs : x.before.running? x.cpu = some r

variable {x : Moment} {course : Course} {r next t : ThreadId} {slice : Duration}

open Kernel

/-- Whoever does not give way keeps the processor. -/
theorem Charges.runs (charges : x.Charges r) (stays : ¬ x.before.GivesWay x.cpu r) :
    x.after.running? x.cpu = some r := not_not.mp (mt charges.replaced_iff.mp stays)

/-! ### The slice of a processor that gets its next thread -/

/-- A processor that gets its next thread gets a full slice. -/
theorem Takes.slice_of_dispatch {k : Kernel} (h : x.Takes (.dispatch k)) :
    x.after.slice x.cpu = x.before.config.quantum := by
  obtain ⟨next, installs⟩ := h.exists_installs
  obtain ⟨slot, found, picked⟩ := installs.picked
  have config := h.transition.config
  have after : x.after = k.redispatch x.cpu := h.after
  have quantum : k.config = x.before.config := by
    obtain ⟨_, _, _, _, same⟩ := installs.frame
    rw [← config, ← h.after, same]
  rw [after, Kernel.slice, cpus_redispatch found picked, quantum]
  simp [found, CpuSlot.seat]

namespace Ticks

/-! ### The verdict and its course -/

/-- A tick takes the course of a verdict on the running thread. -/
theorem exists_verdict (h : x.Ticks course r) :
    ∃ verdict, x.before.Judges x.cpu r verdict ∧ course = x.before.tickCourse x.cpu verdict := by
  obtain ⟨slot, found, _⟩ := Option.bind_eq_some_iff.mp h.runs
  obtain ⟨reply, done⟩ := h.done
  have transition := h.takes.transition
  rw [h.asked, done] at transition
  obtain ⟨_, same⟩ := transition.course_of_tick h.begun found
  exact ⟨_, h.takes.regular.judges h.begun h.punctual found h.runs, same⟩

theorem keeps (h : x.Ticks course r) : x.before.Keeps x.after := by
  obtain ⟨reply, done⟩ := h.done
  have changes := h.takes.transition.keeps_or_alters
  rw [← h.takes.after, h.asked] at changes
  rcases changes with ⟨keeps, _⟩ | ⟨_, _, asked, _⟩ | recordsChange
  · exact keeps
  · cases asked
  · cases recordsChange

theorem policyOf? (h : x.Ticks course r) (t : ThreadId) :
    x.after.policyOf? t = x.before.policyOf? t := by
  have same := congrArg (Option.map (·.policy)) (h.keeps.get? t)
  rw [Option.map_map, Option.map_map] at same
  exact same

theorem outranks_iff (h : x.Ticks course r) {a b : ThreadId} :
    x.after.Outranks a b ↔ x.before.Outranks a b := by
  unfold Kernel.Outranks
  rw [h.policyOf?, h.policyOf?]

/-- A verdict to go on leaves the processor with its thread. -/
private theorem retains (h : x.Ticks (x.before.tickCourse x.cpu (.keep slice)) r) :
    x.Retains r slice := by
  obtain ⟨slot, found, current⟩ := Option.bind_eq_some_iff.mp h.runs
  have after : x.after = { x.before.beforeCharge x.cpu with
      cpus := (x.before.beforeCharge x.cpu).cpus.modify x.cpu ({ · with slice }) } := h.takes.after
  rw [cpus_beforeCharge] at after
  constructor
  · rw [after]
    simp [Kernel.running?, found, current]
  · rw [after]
    simp [Kernel.slice, found]
  · intro policy
    rw [after]
    exact threadsAt_beforeCharge h.takes.regular.placement.records h.punctual x.cpu policy

private theorem seats {k : Kernel} (h : x.Ticks (.dispatch k) r)
    (levels : ∀ policy, k.ready.threadsAt policy = x.before.requeued x.cpu r policy) :
    ∃ next, x.Seats r next := by
  obtain ⟨next, runs, serves⟩ := (h.takes.servesBest h.begun).serves k rfl
  exact ⟨next, runs, h.takes.slice_of_dispatch, k.ready, levels, h.takes.ordered_moved, serves⟩

/-- A verdict to replace a thread that is not active lets those who wait get the processor. -/
private theorem seats_of_replace (h : x.Ticks (x.before.tickCourse x.cpu .replace) r)
    (inactive : ¬ x.before.Active x.cpu r) : ∃ next, x.Seats r next := by
  apply Ticks.seats h
  intro policy
  rw [requeued, if_neg fun both => inactive both.1, List.append_nil]
  exact threadsAt_beforeCharge h.takes.regular.placement.records h.punctual x.cpu policy

/-- A verdict to preempt a thread lets it wait behind the others. -/
private theorem seats_of_preempt (h : x.Ticks (x.before.tickCourse x.cpu (.preempt r)) r)
    (active : x.before.Active x.cpu r) : ∃ next, x.Seats r next := by
  have regular := h.takes.regular
  have after : (x.before.beforeCharge x.cpu).Regular := regular.beforeCharge h.begun
  apply Ticks.seats h
  intro policy
  rw [threadsAt_makeReady after.placement.records, policyOf?_beforeCharge,
    threadsAt_beforeCharge regular.placement.records h.punctual, requeued]
  simp [active]

/-! ### Who runs next -/

/-- Nobody waits who is sent nowhere. -/
theorem not_idles_of_waiting {waiting : ReadyQueue} (ordered : waiting.Ordered)
    {policy : Policy} (member : t ∈ waiting.threadsAt policy) : ¬ x.Idles waiting next := by
  intro idles
  rw [ReadyQueue.threadsAt_of_toList_eq_nil ordered idles.empty policy] at member
  cases member

theorem mem_requeued_of_queued {k : Kernel} {here : Nat} {policy : Policy}
    (waits : t ∈ k.queued here policy) : t ∈ k.requeued here r policy :=
  List.mem_append_left _ waits

/-- An active thread goes back to the end of the level of its policy. -/
private theorem requeued_eq_of_active {k : Kernel} {here : Nat} {policy : Policy}
    (active : k.Active here r) (named : k.policyOf? r = some policy) :
    k.requeued here r policy = k.queued here policy ++ [r] := by
  rw [requeued, if_pos ⟨active, named⟩]

/-- A thread that does not go back to a level does not change it. -/
private theorem requeued_eq_of_other {k : Kernel} {here : Nat} {own policy : Policy}
    (named : k.policyOf? r = some own) (other : policy ≠ own) :
    k.requeued here r policy = k.queued here policy := by
  rw [requeued, if_neg, List.append_nil]
  intro both
  exact other (Option.some.inj (both.2.symm.trans named))

private theorem exists_policy (h : x.Ticks course r) :
    ∃ policy, x.before.policyOf? r = some policy := by
  obtain ⟨thread, found⟩ := Option.isSome_iff_exists.mp (h.takes.regular.isSome_of_running h.runs)
  exact ⟨thread.policy, by rw [Kernel.policyOf?, found]; rfl⟩

private theorem not_mem_queued (h : x.Ticks course r) (policy : Policy) :
    r ∉ x.before.queued x.cpu policy :=
  not_mem_queued_of_running h.takes.regular.placement h.punctual h.runs

/-- An active thread that gives its processor away goes to the end of its level, and the first of
those who wait then is served. -/
private theorem exists_servesFirst (h : x.Ticks course r) (active : x.before.Active x.cpu r)
    (seats : x.Seats r next) :
    ∃ own waiting, x.before.policyOf? r = some own ∧
      (∀ policy, waiting.threadsAt policy = x.before.requeued x.cpu r policy) ∧
      waiting.threadsAt own = x.before.queued x.cpu own ++ [r] ∧ x.ServesFirst waiting next := by
  obtain ⟨own, named⟩ := h.exists_policy
  obtain ⟨waiting, levels, ordered, serves⟩ := seats.served
  have back := levels own
  rw [requeued_eq_of_active active named] at back
  have member : r ∈ waiting.threadsAt own :=
    back ▸ List.mem_append_right _ (List.mem_singleton_self r)
  exact ⟨own, waiting, named, levels, back,
    serves.resolve_right (not_idles_of_waiting ordered member)⟩

/-- An active thread that went back to its level is served again exactly if it outranks all that
wait. -/
private theorem other_iff (h : x.Ticks course r) (active : x.before.Active x.cpu r)
    (seats : x.Seats r next) :
    next ≠ r ↔ x.before.Rivalled x.cpu r := by
  have placement := h.takes.regular.placement
  obtain ⟨own, waiting, named, levels, back, serves⟩ := h.exists_servesFirst active seats
  obtain ⟨level, _, head, _, higher⟩ := serves.first
  rw [levels] at head
  -- Nobody is at a higher level than the one that is served, and `r` is at its own.
  have lower : ¬ own.Outranks level := by
    intro outranks
    rw [higher own outranks] at back
    exact List.append_ne_nil_of_right_ne_nil _ (List.cons_ne_nil r []) back.symm
  constructor
  · intro other
    have first : next ∈ x.before.requeued x.cpu r level := head ▸ List.mem_cons_self
    have waits : next ∈ x.before.queued x.cpu level := by
      rcases List.mem_append.mp first with waits | itself
      · exact waits
      · split at itself
        · exact absurd (List.mem_singleton.mp itself) other
        · cases itself
    refine ⟨level, next, waits, ?_⟩
    rintro ⟨p, q, is, also, outranks⟩
    obtain rfl := Option.some.inj (named.symm.trans is)
    obtain rfl := Option.some.inj ((policyOf?_of_mem_queued placement waits).symm.trans also)
    exact lower outranks
  · rintro ⟨policy, t, waits, spared⟩ rfl
    -- If `r` is served again, it is alone at its level and nobody is above it.
    obtain rfl : level = own := by
      have first : next ∈ x.before.requeued x.cpu next level := head ▸ List.mem_cons_self
      rcases List.mem_append.mp first with waits | itself
      · exact absurd waits (h.not_mem_queued level)
      · split at itself
        · rename_i both
          exact Option.some.inj (both.2.symm.trans named)
        · cases itself
    rw [requeued_eq_of_active active named] at head
    have alone : x.before.queued x.cpu level = [] := by
      cases ahead : x.before.queued x.cpu level with
      | nil => rfl
      | cons first rest =>
        rw [ahead, List.cons_append] at head
        obtain ⟨rfl, _⟩ := List.cons.inj head
        exact absurd (ahead ▸ List.mem_cons_self) (h.not_mem_queued level)
    apply spared
    refine ⟨level, policy, named, policyOf?_of_mem_queued placement waits, ?_⟩
    have notHigher : ¬ policy.Outranks level := by
      intro outranks
      have member : t ∈ waiting.threadsAt policy := by
        rw [levels]
        exact mem_requeued_of_queued waits
      rw [higher policy outranks] at member
      cases member
    have distinct : policy ≠ level := by
      rintro rfl
      rw [alone] at waits
      cases waits
    exact Nat.lt_of_le_of_ne (Nat.le_of_not_lt notHigher)
      fun same => distinct (Policy.rank_inj same.symm)

/-- A thread that is replaced after it went back to its level is the last one there. -/
private theorem tail_of_seats (h : x.Ticks course r) (active : x.before.Active x.cpu r)
    (seats : x.Seats r next) (other : next ≠ r) :
    x.after.stateOf? r = some .ready ∧
      ∃ policy ahead, x.after.policyOf? r = some policy ∧
        x.after.ready.threadsAt policy = ahead ++ [r] := by
  obtain ⟨own, waiting, named, _, back, serves⟩ := h.exists_servesFirst active seats
  obtain ⟨level, _, head, others, _⟩ := serves.first
  have last : ∃ ahead, x.after.ready.threadsAt own = ahead ++ [r] := by
    by_cases here : own = level
    · subst here
      rw [head] at back
      cases ahead : x.before.queued x.cpu own with
      | nil =>
        rw [ahead, List.nil_append] at back
        exact absurd (List.cons.inj back).1 other
      | cons first rest =>
        rw [ahead, List.cons_append] at back
        exact ⟨rest, (List.cons.inj back).2⟩
    · exact ⟨x.before.queued x.cpu own, (others own here).trans back⟩
  obtain ⟨ahead, last⟩ := last
  have listed : r ∈ x.after.ready.threadsAt own :=
    last ▸ List.mem_append_right _ (List.mem_singleton_self r)
  obtain ⟨thread, found, place⟩ := exists_thread_of_place?
    (((h.takes.regular_after.placement.listed (.level own)).mem_iff r).mp listed)
  refine ⟨?_, own, ahead, (h.policyOf? r).trans named, last⟩
  rw [Kernel.stateOf?, found, Option.map_some, (Thread.place_eq_level_iff.mp place).1]

/-! ### Charging -/

private theorem charges_of_retains (retains : x.Retains r slice)
    (stays : ¬ x.before.GivesWay x.cpu r)
    (left : slice =
      if x.before.idle? x.cpu = some r then x.before.slice x.cpu
      else if x.before.slice x.cpu ≤ x.before.elapsed x.cpu then x.before.config.quantum
      else x.before.slice x.cpu - x.before.elapsed x.cpu) : x.Charges r where
  replaced_iff := ⟨fun replaced => absurd retains.runs replaced, fun gives => absurd gives stays⟩
  slice _ := retains.left.trans left
  kept _ := retains.levels
  served _ other runs := absurd (Option.some.inj (runs.symm.trans retains.runs)) other
  tail replaced := absurd retains.runs replaced

private theorem charges_of_other (h : x.Ticks course r) (seats : x.Seats r next) (other : next ≠ r)
    (gives : x.before.GivesWay x.cpu r) : x.Charges r := by
  have replaced : x.after.running? x.cpu ≠ some r :=
    fun runs => other (Option.some.inj (seats.runs.symm.trans runs))
  constructor
  · exact ⟨fun _ => gives, fun _ => replaced⟩
  · exact fun runs => absurd runs replaced
  · exact fun runs => absurd runs replaced
  · intro also _ runs
    obtain rfl := Option.some.inj (seats.runs.symm.trans runs)
    obtain ⟨waiting, levels, _, serves⟩ := seats.served
    exact ⟨seats.full, waiting, levels, serves⟩
  · exact fun _ active => h.tail_of_seats active seats other

/-- An active thread that is served again has a full slice, and those who wait are those who waited
before. -/
private theorem retains_of_same (h : x.Ticks course r) (active : x.before.Active x.cpu r)
    (seats : x.Seats r r) : x.Retains r x.before.config.quantum := by
  obtain ⟨own, waiting, named, levels, back, serves⟩ := h.exists_servesFirst active seats
  obtain ⟨level, ranks, head, others, _⟩ := serves.first
  obtain rfl : level = own := Option.some.inj (ranks.symm.trans ((h.policyOf? r).trans named))
  refine ⟨seats.runs, seats.full, fun policy => ?_⟩
  by_cases here : policy = level
  · subst here
    rw [head] at back
    cases ahead : x.before.queued x.cpu policy with
    | nil =>
      rw [ahead, List.nil_append] at back
      exact (List.cons.inj back).2
    | cons first rest =>
      rw [ahead, List.cons_append] at back
      obtain ⟨rfl, _⟩ := List.cons.inj back
      exact absurd (ahead ▸ List.mem_cons_self) (h.not_mem_queued policy)
  · rw [others policy here, levels, requeued_eq_of_other named here]

/-- Somebody who wakes and outranks a thread waits and is not outranked by it. -/
theorem exists_rival (h : x.Ticks course r)
    (outranked : ∃ t ∈ x.before.roused x.cpu, x.before.Outranks t r) :
    x.before.Rivalled x.cpu r := by
  obtain ⟨t, woken, p, q, is, also, outranks⟩ := outranked
  obtain ⟨policy, named, waits⟩ :=
    exists_queued_of_roused h.takes.regular.placement h.punctual woken
  refine ⟨policy, t, waits, ?_⟩
  rintro ⟨p', q', also', is', outranks'⟩
  obtain rfl := Option.some.inj (is.symm.trans is')
  obtain rfl := Option.some.inj (also.symm.trans also')
  exact outranks.asymm outranks'

/-- A thread that is served again has used up its slice. -/
private theorem le_elapsed_of_spent (h : x.Ticks course r) (spent : x.before.Spent x.cpu r)
    (unrivalled : ¬ x.before.Rivalled x.cpu r) :
    x.before.slice x.cpu ≤ x.before.elapsed x.cpu :=
  spent.resolve_right fun outranked => unrivalled (h.exists_rival outranked)

/-- A running thread that idles has not ended. -/
theorem not_terminated_of_idle (h : x.Ticks course r)
    (own : x.before.idle? x.cpu = some r) : x.before.stateOf? r = some .running := by
  have occupied := h.takes.regular.placement.occupied
  rcases occupied.place_of_running h.runs with stands | stands
  · exact stateOf?_eq_some_running_iff.mpr stands
  · rcases occupied.idle own with aside | processor
    · cases stands.symm.trans aside
    · cases stands.symm.trans processor

/-- Every tick charges the running thread. -/
theorem charges (h : x.Ticks course r) : x.Charges r := by
  obtain ⟨verdict, judges, rfl⟩ := h.exists_verdict
  cases judges with
  | ended state =>
    have inactive : ¬ x.before.Active x.cpu r := by
      intro active
      cases active.running.symm.trans state
    obtain ⟨next, seats⟩ := seats_of_replace h inactive
    refine h.charges_of_other seats ?_ (.ended state)
    rintro rfl
    have gone : x.before.Gone next := .of_terminated state
    have timed : (x.before.beforeCharge x.cpu).Gone next :=
      gone.of_keepsGone (.of_beforeCharge h.takes.regular.placement)
    exact h.takes.running?_ne_of_gone timed seats.runs
  | idles own empty =>
    refine charges_of_retains (retains h) ?_ (if_pos own).symm
    intro gives
    cases gives with
    | ended state => cases (h.not_terminated_of_idle own).symm.trans state
    | idle _ waiting =>
      obtain ⟨policy, some_waiting⟩ := waiting
      exact some_waiting (empty policy)
    | active _ busy => exact busy own
  | called own waiting =>
    obtain ⟨next, seats⟩ := seats_of_replace h fun active => active.busy own
    refine h.charges_of_other seats ?_ (.idle own waiting)
    rintro rfl
    obtain ⟨queue, levels, ordered, serves⟩ := seats.served
    obtain ⟨policy, some_waiting⟩ := waiting
    obtain ⟨t, waits⟩ := List.exists_mem_of_ne_nil _ some_waiting
    have member : t ∈ queue.threadsAt policy := by
      rw [levels]
      exact mem_requeued_of_queued waits
    have busy := (serves.resolve_right (not_idles_of_waiting ordered member)).busy
    exact isIdle_eq_false busy x.cpu own
  | goesOn active left =>
    refine charges_of_retains (retains h) (fun gives => left (active.givesWay_iff.mp gives).1) ?_
    rw [if_neg active.busy, if_neg fun spent => left (.inl spent)]
  | renewed active spent empty =>
    have unrivalled : ¬ x.before.Rivalled x.cpu r := by
      rintro ⟨policy, t, waits, _⟩
      rw [empty policy] at waits
      cases waits
    refine charges_of_retains (retains h)
      (fun gives => unrivalled (active.givesWay_iff.mp gives).2) ?_
    rw [if_neg active.busy, if_pos (h.le_elapsed_of_spent spent unrivalled)]
  | givesBack active spent waiting =>
    obtain ⟨next, seats⟩ := seats_of_preempt h active
    have other_iff := h.other_iff active seats
    by_cases same : next = r
    · -- The thread is served again, so nobody waits who is as important.
      subst same
      have unrivalled : ¬ x.before.Rivalled x.cpu next := fun rival => other_iff.mpr rival rfl
      refine charges_of_retains (h.retains_of_same active seats)
        (fun gives => unrivalled (active.givesWay_iff.mp gives).2) ?_
      rw [if_neg active.busy, if_pos (h.le_elapsed_of_spent spent unrivalled)]
    · exact h.charges_of_other seats same (active.givesWay_iff.mpr ⟨spent, other_iff.mp same⟩)

end Ticks

end Moment

/-- Every processor of a kernel that schedules executes ticks while it runs some thread. -/
theorem Machine.exists_ticks {m : Machine} {cpu : Nat} (reached : m.kernel.Reachable)
    (begun : m.kernel.initialized = true) (inside : cpu < m.kernel.config.cpus) :
    ∃ course r, (m.moment ⟨cpu, .tick⟩).Ticks course r := by
  obtain ⟨course, takes⟩ := exists_course reached ⟨cpu, .tick⟩
  have orderly := reached.regular.orderly
  have idleAssigned := (orderly.idleAssigned begun cpu (orderly.length.symm ▸ inside)).2
  obtain ⟨r, runs⟩ := Option.isSome_iff_exists.mp idleAssigned
  have done : ∃ reply, (m.moment ⟨cpu, .tick⟩).result = .ok reply :=
    granted_of_relieves begun idleAssigned trivial
  exact ⟨course, r, takes, rfl, done, begun, reached.punctual, runs⟩

end ThreadScheduler
