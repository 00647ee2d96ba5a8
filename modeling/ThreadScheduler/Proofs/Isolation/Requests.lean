/-
Module: ThreadScheduler.Proofs.Isolation.Requests
Purpose: What a thread above a cut asks for, with nothing seen but the threads above the cut: who
  the caller is, what it is answered, and what becomes of everybody are read off what is seen.
Main exports: Kernel.caller_upper, Kernel.upper_yield, Kernel.upper_sleep, Kernel.upper_lock,
  Kernel.upper_unlock, Kernel.upper_terminate
-/
import ThreadScheduler.Proofs.Isolation.View

namespace ThreadScheduler

namespace Kernel

variable {k base : Kernel} {cut : Nat} {id : ThreadId} {thread : Thread} {slice : Duration}
  {course : Course} {reply : Reply}

/-! ### The running thread -/

theorem upper_running_iff :
    (k.upper cut).running = some (id, slice) ↔
      k.running? 0 = some id ∧ (k.high? cut id).isSome ∧ k.slice 0 = slice := by
  simp only [upper, Option.map_eq_some_iff, Option.filter_eq_some_iff, Prod.mk.injEq]
  constructor
  · rintro ⟨_, ⟨current, seen⟩, rfl, left⟩
    exact ⟨current, seen, left⟩
  · rintro ⟨current, seen, left⟩
    exact ⟨id, ⟨current, seen⟩, rfl, left⟩

/-- While an unseen thread runs, whoever runs is not seen. -/
theorem unseen_of_running (unseen : (k.upper cut).running = none)
    (current : k.running? 0 = some id) : k.high? cut id = none := by
  rw [← Option.not_isSome_iff_eq_none]
  intro seen
  cases unseen.symm.trans (upper_running_iff.mpr ⟨current, seen, rfl⟩)

/-- A seen thread is marked as running exactly if it is seen to be. -/
theorem any_running_iff (seen : (k.high? cut id).isSome) :
    (k.high? cut id).any (·.state = .running) = true ↔ k.stateOf? id = some .running := by
  obtain ⟨thread, high⟩ := Option.isSome_iff_exists.mp seen
  obtain ⟨_, found, _⟩ := high?_eq_some_iff.mp high
  simp [high, stateOf?, found]

theorem active?_eq_some_iff :
    (k.upper cut).active? = some (id, slice) ↔
      (k.upper cut).running = some (id, slice) ∧ k.stateOf? id = some .running := by
  unfold Upper.active?
  rw [Option.filter_eq_some_iff]
  apply and_congr_right
  intro runs
  exact any_running_iff (upper_running_iff.mp runs).2.1

/-- A thread that runs and ended meanwhile does nothing any more. -/
theorem active?_of_ended (runs : (k.upper cut).running = some (id, slice))
    (ended : k.stateOf? id ≠ some .running) : (k.upper cut).active? = none := by
  cases active : (k.upper cut).active? with
  | none => rfl
  | some current =>
    obtain ⟨other, left⟩ := current
    obtain ⟨same, state⟩ := active?_eq_some_iff.mp active
    obtain ⟨rfl, _⟩ := Prod.mk.inj (Option.some.inj (runs.symm.trans same))
    exact absurd state ended

/-- Whoever is seen to call calls. -/
theorem caller_upper (runs : (k.upper cut).running = some (id, slice)) :
    (k.upper cut).caller = k.caller 0 := by
  obtain ⟨current, seen, _⟩ := upper_running_iff.mp runs
  have busy := busy_of_seen seen
  unfold Upper.caller
  by_cases state : k.stateOf? id = some .running
  · rw [active?_eq_some_iff.mpr ⟨runs, state⟩]
    exact (caller_eq_ok_iff.mpr ⟨current, busy, state⟩).symm
  · rw [active?_of_ended runs state, runs]
    simp [caller, current, busy, state]

/-- The processor goes on after its thread went elsewhere. -/
theorem upper_redispatch_of_moved (cut : Nat) (vacant : base.Vacant 0)
    (current : base.running? 0 = some id) (moved : base.stateOf? id ≠ some .running) :
    (base.redispatch 0).upper cut = (base.upper cut).dispatch := by
  apply vacant.upper_redispatch
  intro other runs _
  obtain rfl := Option.some.inj (current.symm.trans runs)
  exact moved

theorem running?_makeReady (k : Kernel) (id : ThreadId) (cpu : Nat) :
    (k.makeReady id).1.running? cpu = k.running? cpu := by
  rw [running?, cpus_makeReady, running?]

/-- A thread that has become ready does not run. -/
theorem stateOf?_makeReady_ne_running (k : Kernel) (id : ThreadId) :
    (k.makeReady id).1.stateOf? id ≠ some .running := by
  rw [stateOf?_makeReady, if_pos rfl]
  cases k.stateOf? id <;> nofun

/-! ### Yielding -/

theorem upper_yield (h : k.Regular) (runs : (k.upper cut).running = some (id, slice))
    (transition : Transition k 0 .yield (.ok reply) course) :
    reply = .done ∧ (course.kernel 0).upper cut = (k.upper cut).yield := by
  obtain ⟨current, seen, _⟩ := upper_running_iff.mp runs
  have busy := busy_of_seen seen
  have regular := transition.regular h
  unfold Upper.yield
  cases transition with
  | answered _ _ inquiry => cases inquiry
  | idleYielded _ runs' idle =>
    obtain rfl := Option.some.inj (current.symm.trans runs')
    cases busy.symm.trans idle
  | @vacated slot _ found leaves =>
    have here : slot.running = some id := by simpa [running?, found] using current
    rcases leaves id here with ⟨idle, _⟩ | ⟨_, ended⟩
    · cases busy.symm.trans idle
    · rw [active?_of_ended runs ended]
      exact ⟨rfl, upper_redispatch_of_moved cut regular.1 current ended⟩
  | yielded _ caller =>
    obtain ⟨runs', _, state⟩ := caller_eq_ok_iff.mp caller
    obtain rfl := Option.some.inj (current.symm.trans runs')
    rw [active?_eq_some_iff.mpr ⟨runs, state⟩]
    refine ⟨rfl, ?_⟩
    have moved := upper_redispatch_of_moved cut regular.1
      ((running?_makeReady k id 0).trans current) (stateOf?_makeReady_ne_running k id)
    rw [upper_makeReady cut h.placement.records busy] at moved
    exact moved
  | stayedAwake _ asked | fellAsleep _ _ asked | endedElsewhere _ asked | endedHere _ asked =>
    cases asked

/-! ### Sleeping -/

/-- A request to sleep that is granted lets the caller sleep, if the moment is in the future. -/
theorem sleeps_of_granted {operation : Operation} {wake : Instant}
    (asked : operation.wakeAt? k.sleeping.now = some wake)
    (transition : Transition k 0 operation (.ok reply) course) :
    reply = .done ∧
      (¬ k.sleeping.now < wake ∧ course = .stay k ∨
        ∃ id, k.caller 0 = .ok id ∧ k.sleeping.now < wake ∧
          course = .dispatch { k with
            threads := k.threads.setState id .sleeping
            sleeping := k.sleeping.enqueue id wake }) := by
  cases transition with
  | stayedAwake _ asks past =>
    obtain rfl := Option.some.inj (asked.symm.trans asks)
    exact ⟨rfl, .inl ⟨past, rfl⟩⟩
  | @fellAsleep _ _ id _ caller asks future =>
    obtain rfl := Option.some.inj (asked.symm.trans asks)
    exact ⟨rfl, .inr ⟨id, caller, future, rfl⟩⟩
  | answered _ _ inquiry => cases operation <;> first | exact False.elim inquiry | cases asked
  | endedElsewhere _ requestsEnd | endedHere _ requestsEnd =>
    cases operation <;> first | exact False.elim requestsEnd | cases asked
  | _ => cases asked

/-- A thread that goes to sleep is seen to. -/
theorem upper_asleep (punctual : k.sleeping.Punctual) (seen : (k.high? cut id).isSome)
    {wake : Instant} (future : k.sleeping.now < wake) :
    Kernel.upper { k with
      threads := k.threads.setState id .sleeping
      sleeping := k.sleeping.enqueue id wake } cut = (k.upper cut).putToSleep wake id := by
  have amends : k.Amends { k with
      threads := k.threads.setState id .sleeping
      sleeping := k.sleeping.enqueue id wake } id ({ · with state := .sleeping }) :=
    amends_of_modify rfl
  rw [upper_of_amends amends (fun _ => rfl) rfl rfl]
  apply Upper.ext
  case sleepers =>
    have early := List.filter_comm (fun sleeper => (k.high? cut sleeper.1).isSome)
      (fun sleeper : ThreadId × Instant => decide (sleeper.2 ≤ wake)) k.sleeping.sleepers
    have late := List.filter_comm (fun sleeper => (k.high? cut sleeper.1).isSome)
      (fun sleeper : ThreadId × Instant => decide (wake < sleeper.2)) k.sleeping.sleepers
    change List.filter _ (Timeline.sleepers _) = _
    rw [punctual.sleepers_enqueue future, List.filter_append, List.filter_cons_of_pos (by simpa),
      early, late]
    rfl
  all_goals rfl

theorem upper_sleep (h : k.Regular) (punctual : k.sleeping.Punctual)
    (runs : (k.upper cut).running = some (id, slice)) {operation : Operation} {wake : Instant}
    (asked : operation.wakeAt? k.sleeping.now = some wake) (caller : k.caller 0 = .ok id)
    (transition : Transition k 0 operation (.ok reply) course) :
    (.ok reply, (course.kernel 0).upper cut) = (k.upper cut).sleep wake id := by
  obtain ⟨current, seen, _⟩ := upper_running_iff.mp runs
  have regular := transition.regular h
  unfold Upper.sleep
  change _ = (_, if k.sleeping.now < wake then _ else _)
  obtain ⟨rfl, ⟨past, rfl⟩ | ⟨other, calls, future, rfl⟩⟩ := sleeps_of_granted asked transition
  · rw [if_neg past]
    rfl
  · obtain rfl := Except.ok.inj (caller.symm.trans calls)
    obtain ⟨_, _, state⟩ := caller_eq_ok_iff.mp caller
    obtain ⟨thread, found, _⟩ := Option.map_eq_some_iff.mp state
    have asleep := upper_asleep punctual seen future
    rw [if_pos future, ← asleep]
    refine congrArg _ (upper_redispatch_of_moved cut regular.1 current ?_)
    simp [stateOf?, ThreadTable.setState, ThreadTable.get?_modify, found]

/-! ### Mutexes -/

theorem upper_lock (h : k.Regular) (runs : (k.upper cut).running = some (id, slice)) {m : MutexId}
    (caller : k.caller 0 = .ok id) (transition : Transition k 0 (.lock m) (.ok reply) course) :
    (.ok reply, (course.kernel 0).upper cut) = (k.upper cut).lock m id := by
  have records := h.placement.records
  obtain ⟨current, seen, _⟩ := upper_running_iff.mp runs
  have regular := transition.regular h
  cases transition with
  | answered _ _ inquiry => cases inquiry
  | @locked _ _ mutex _ calls found granted =>
    obtain rfl := Except.ok.inj (caller.symm.trans calls)
    have held := upper_setMutex cut records found (mutex.lock id).2
    rw [Upper.lock, Upper.onMutex_of_found ((mutex?_upper cut records m).trans found)]
    dsimp only
    rw [if_neg granted]
    exact congrArg _ held
  | @blocked _ _ mutex _ calls found waits =>
    obtain rfl := Except.ok.inj (caller.symm.trans calls)
    obtain ⟨_, _, state⟩ := caller_eq_ok_iff.mp caller
    obtain ⟨thread, known, _⟩ := Option.map_eq_some_iff.mp state
    have moved := upper_redispatch_of_moved cut regular.1 current
      (by simp [stateOf?, ThreadTable.get?_modify, known])
    rw [upper_blocked records found] at moved
    rw [Upper.lock, Upper.onMutex_of_found ((mutex?_upper cut records m).trans found)]
    dsimp only
    rw [if_pos waits, waits]
    exact congrArg _ moved
  | stayedAwake _ asked | fellAsleep _ _ asked | endedElsewhere _ asked | endedHere _ asked =>
    cases asked

theorem upper_unlock (h : k.Regular) {m : MutexId} (caller : k.caller 0 = .ok id)
    (transition : Transition k 0 (.unlock m) (.ok reply) course) :
    (.ok reply, (course.kernel 0).upper cut) = (k.upper cut).unlock m id := by
  have records := h.placement.records
  cases transition with
  | answered _ _ inquiry => cases inquiry
  | @unlocked _ _ mutex _ calls found nobody =>
    obtain rfl := Except.ok.inj (caller.symm.trans calls)
    have left := upper_setMutex cut records found (mutex.unlock id).2
    rw [Upper.unlock, Upper.onMutex_of_found ((mutex?_upper cut records m).trans found)]
    dsimp only
    split
    · rename_i next passes
      exact absurd passes (nobody next)
    · exact congrArg _ left
  | @handedOff _ _ next mutex _ calls found passes =>
    obtain rfl := Except.ok.inj (caller.symm.trans calls)
    have left := upper_setMutex cut records found (mutex.unlock id).2
    have handed := (Mutex.unlock_passes passes).2.2
    have busy := h.placement.busy_of_place (h.placement.place_of_passes found handed)
    have kept : Records { k with mutexes := k.mutexes.replace m (mutex.unlock id).2 } :=
      records.of_same (fun _ => rfl) (records.handles_replace found handed.handle) rfl
    have ready := upper_makeReady cut kept busy
    rw [left] at ready
    rw [Upper.unlock, Upper.onMutex_of_found ((mutex?_upper cut records m).trans found)]
    dsimp only
    rw [passes]
    exact congrArg _ ready
  | stayedAwake _ asked | fellAsleep _ _ asked | endedElsewhere _ asked | endedHere _ asked =>
    cases asked

/-! ### The end of threads -/

/-- Whether a seen thread runs is seen. -/
theorem any_running_upper_iff (seen : (k.high? cut id).isSome) :
    (k.upper cut).running.any (·.1 = id) = true ↔ k.running? 0 = some id := by
  rw [Option.any_eq_true]
  constructor
  · rintro ⟨⟨other, left⟩, runs, same⟩
    obtain rfl : other = id := of_decide_eq_true same
    exact (upper_running_iff.mp runs).1
  · intro current
    exact ⟨(id, k.slice 0), upper_running_iff.mpr ⟨current, seen, rfl⟩, decide_eq_true rfl⟩

/-- A thread that is asked to end ends as it is seen to. -/
theorem upper_terminate (h : k.Regular) (punctual : k.sleeping.Punctual)
    (seen : (k.high? cut id).isSome) {operation : Operation}
    (asked : operation = .terminate id ∨ k.caller 0 = .ok id ∧ ∃ code, operation = .exit code)
    (transition : Transition k 0 operation (.ok reply) course) :
    (.ok reply, (course.kernel 0).upper cut) =
      ((.ok .done, (k.upper cut).terminate id) : Upper.Outcome) := by
  obtain ⟨thread, high⟩ := Option.isSome_iff_exists.mp seen
  obtain ⟨busy, found, _⟩ := high?_eq_some_iff.mp high
  have handle := h.placement.records.handle found
  have record : (k.upper cut).record id = some thread := high
  have regular := transition.regular h
  have endsOnRequest (victim : ThreadId) (requestsEnd : k.RequestsEnd 0 victim operation) :
    victim = id := by
    rcases asked with rfl | ⟨caller, _, rfl⟩
    · exact requestsEnd.symm
    · exact Except.ok.inj (requestsEnd.symm.trans caller)
  -- Seen from above, ends differ only in whether the processor picks another thread.
  have ends (alive : thread.state ≠ .terminated) :
      (k.upper cut).terminate id =
        if k.running? 0 = some id then ((k.ended thread).upper cut).dispatch
        else (k.ended thread).upper cut := by
    rw [upper_ended h punctual found busy alive, Upper.terminate, if_pos (by simp [record, alive])]
    simp only [any_running_upper_iff seen]
  cases transition with
  | alreadyEnded _ state =>
    rcases asked with same | ⟨_, _, same⟩
    · obtain rfl := Operation.terminate.inj same
      have ended : thread.state = .terminated := by simpa [stateOf?, found] using state
      rw [Upper.terminate, if_neg (by simp [record, ended])]
      rfl
    · cases same
  | endedElsewhere _ requestsEnd present alive _ elsewhere =>
    obtain rfl := (endsOnRequest _ requestsEnd).symm
    obtain rfl := Option.some.inj (found.symm.trans present)
    rw [ends alive, if_neg (handle ▸ elsewhere)]
    rfl
  | endedHere _ requestsEnd present alive _ current =>
    obtain rfl := (endsOnRequest _ requestsEnd).symm
    obtain rfl := Option.some.inj (found.symm.trans present)
    rw [handle] at current
    have still : (k.ended thread).running? 0 = some id := by
      rw [running?, cpus_ended]
      exact current
    have ends' := h.placement.ends_ended (h.strange id) found busy alive
    have state : (k.ended thread).stateOf? id = some .terminated := by
      simp [stateOf?, ends'.victim, found]
    have gone : (k.ended thread).stateOf? id ≠ some .running := by
      intro still
      cases state.symm.trans still
    rw [ends alive, if_pos current]
    exact congrArg _ (upper_redispatch_of_moved cut regular.1 still gone)
  | answered _ _ inquiry => rcases asked with rfl | ⟨_, _, rfl⟩ <;> cases inquiry
  | stayedAwake _ moment | fellAsleep _ _ moment =>
    rcases asked with rfl | ⟨_, _, rfl⟩ <;> cases moment
  | _ => rcases asked with same | ⟨_, _, same⟩ <;> cases same

end Kernel

end ThreadScheduler
