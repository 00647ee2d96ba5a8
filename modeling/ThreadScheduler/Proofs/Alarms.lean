/-
Module: ThreadScheduler.Proofs.Alarms
Purpose: No branch that reports an internal error is ever taken, and no number is subtracted from a
  smaller one.
Main exports: Alarm.perform_eq, Machine.NeverAlarmed, Machine.neverAlarmed
-/
import ThreadScheduler.Proofs.Alarms.Agreement
import ThreadScheduler.Proofs.Alarms.Causes
import ThreadScheduler.Proofs.MutexFields

namespace ThreadScheduler

namespace Alarm

variable (alarm : Alarm) {m : Machine}

/-! ### Parts of calls

Between the parts of a call the kernel is not always one that a run leads to: a thread may be in no
container. So each part has what it needs as a hypothesis of its own. -/

theorem makeReady_eq {id : ThreadId} (serves : m.kernel.Serves id) :
    alarm.makeReady id m = Call.makeReady id m := by
  unfold makeReady Call.makeReady
  simp only [Call.kernel_bind, Call.put_bind, Kernel.complaint_of_serves serves]
  rfl

theorem reschedule_eq (fits : Course.Regular m.cpu (.dispatch m.kernel)) :
    alarm.reschedule m = Call.reschedule m := by
  obtain ⟨slot, next, ready, previous, found, picked, current, switches⟩ :=
    Kernel.exists_dispatch fits
  unfold reschedule Call.reschedule Kernel.dispatch
  simp only [Call.cpu_bind, Call.kernel_bind, found, picked, current]
  by_cases same : previous = next
  · simp only [same, if_true]
  · obtain ⟨switch, planned⟩ := switches same
    simp only [same, if_false, Call.put_bind, Call.update_bind, Call.kernel_bind, Call.log_bind,
      planned]

/-- A processor gets its next thread and switches to it. -/
theorem switchOver_eq (fits : Course.Regular m.cpu (.dispatch m.kernel)) :
    (do Call.carryOut (← alarm.reschedule) : Call Unit) m =
      (do Call.carryOut (← Call.reschedule) : Call Unit) m :=
  Call.bind_agree_left (alarm.reschedule_eq fits) _

theorem wakeAll_eq (ids : List ThreadId) (serves : ∀ id ∈ ids, m.kernel.Serves id) :
    ids.forM alarm.wake m = ids.forM Call.wake m := by
  induction ids generalizing m with
  | nil => rfl
  | cons id rest ih =>
    obtain ⟨first, later⟩ := List.forall_mem_cons.mp serves
    have woken : alarm.wake id m = Call.wake id m := alarm.makeReady_eq first
    refine Call.bind_agree_of_acts woken (Call.acts_wake id) fun _ between kernelEq _ => ?_
    exact ih fun other member => kernelEq ▸ (later other member).makeReady id

theorem keepTime_eq (h : m.kernel.Placement) : alarm.keepTime m = Call.keepTime m := by
  unfold keepTime Call.keepTime
  simp only [Call.kernel_bind, advance_eq, pure_bind, Call.put_bind]
  apply Call.bind_agree_left
  apply alarm.wakeAll_eq
  intro id due
  exact h.serves_of_place (h.mem_timeline_iff.mp (Kernel.mem_sleeping_of_due due))

/-- Once scheduling has begun a processor runs a thread, and the thread has a record. -/
theorem findCharged_eq {here : Nat} {slot : CpuSlot} (h : m.kernel.Regular)
    (begun : m.kernel.initialized = true) (found : m.kernel.cpus[here]? = some slot) :
    alarm.findCharged here slot m = (pure () : Call Unit) m := by
  have inside : here < m.kernel.cpus.length := (List.getElem?_eq_some_iff.mp found).1
  obtain ⟨id, ran⟩ := Option.isSome_iff_exists.mp (h.orderly.idleAssigned begun here inside).2
  have current : slot.running = some id := by simpa [Kernel.running?, found] using ran
  have known : m.kernel.threads.contains id = true := h.isSome_of_running ran
  unfold findCharged
  rw [current]
  change (if m.kernel.threads.contains id = true then pure ()
    else alarm.raise (.unknownInTick id) : Call Unit) m = _
  rw [if_pos known]

theorem charge_eq {here : Nat} {slot : CpuSlot} {elapsed : Duration} {woken : Option Policy}
    (executing : m.cpu = here) (h : m.kernel.Regular) (begun : m.kernel.initialized = true)
    (found : m.kernel.cpus[here]? = some slot) :
    alarm.charge here slot elapsed woken m = Call.charge here slot elapsed woken m := by
  subst executing
  unfold charge Call.charge
  refine (Call.bind_agree_left (alarm.findCharged_eq h begun found) _).trans ?_
  rw [pure_bind]
  simp only [Call.kernel_bind]
  cases verdict : m.kernel.tickVerdict slot elapsed woken with
  | keep slice => rfl
  | preempt id =>
    obtain ⟨current, busy, runs⟩ := h.runs_of_preempt found verdict
    have serves : m.kernel.Serves id := h.placement.serves (h.isSome_of_running current)
    refine Call.bind_agree_of_acts (alarm.makeReady_eq serves) (Call.acts_makeReady id)
      fun _ between kernelEq cpuEq => ?_
    apply alarm.reschedule_eq
    rw [kernelEq, cpuEq]
    exact h.yielded begun current busy runs
  | replace =>
    exact alarm.reschedule_eq
      (h.vacated begun found fun id => Kernel.tickVerdict_eq_replace verdict)

theorem passOn_eq (owner : ThreadId) (id : MutexId) (attended : m.kernel.Attended) :
    alarm.passOn owner id m = Call.passOn owner id m := by
  unfold passOn Call.passOn
  simp only [Call.kernel_bind]
  cases found : m.kernel.mutexes.get? id with
  | none => rfl
  | some old =>
    simp only [Option.bind_some]
    cases taken : old.withdraw owner with
    | none => rfl
    | some removed =>
      obtain ⟨removal, mutex⟩ := removed
      rcases removal with _ | _ | nextOwner
      · rfl
      · rfl
      · simp only [Call.put_bind, Call.log_bind]
        apply alarm.makeReady_eq
        apply attended id nextOwner
        rw [Kernel.line_of_found found]
        exact Kernel.mem_waiting_of_nextOwner taken

theorem passAll_eq (owner : ThreadId) (ids : List MutexId) (attended : m.kernel.Attended) :
    ids.forM (alarm.passOn owner) m = ids.forM (Call.passOn owner) m := by
  induction ids generalizing m with
  | nil => rfl
  | cons id rest ih =>
    refine Call.bind_agree_of_acts (alarm.passOn_eq owner id attended) (Call.acts_passOn owner id)
      fun _ between kernelEq _ => ?_
    exact ih (kernelEq ▸ attended.passOn owner id)

/-- A processor that ran the thread that has ended finds the next one. -/
theorem announceEnd_eq (id : ThreadId) (here : Nat) (host : Option Nat)
    (fits : m.kernel.running? here = some id → Course.Regular m.cpu (.dispatch m.kernel)) :
    alarm.announceEnd id here host m = Call.announceEnd id here host m := by
  unfold announceEnd Call.announceEnd
  simp only [Call.kernel_bind]
  split
  · rename_i current
    exact Call.bind_agree_left (alarm.reschedule_eq (fits current)) _
  · rfl

/-- A thread that ends is where its state says. Its next owners can become ready, and if it ran here
the processor finds the next thread. -/
theorem endThread_eq {id : ThreadId} {thread : Thread} (h : m.kernel.Regular)
    (begun : m.kernel.initialized = true) (found : m.kernel.threads.get? id = some thread)
    (busy : m.kernel.isIdle id = false) (alive : thread.state ≠ .terminated) :
    alarm.endThread thread m = Call.endThread thread m := by
  obtain ⟨base, detached⟩ := Option.isSome_iff_exists.mp (h.detach_isSome found busy)
  have handle := h.placement.records.handle found
  have attended := h.attended_detached found busy alive
  have kernelEq : base = m.kernel.detached thread := by simp [Kernel.detached, detached]
  unfold endThread Call.endThread
  simp only [Call.cpu_bind, Call.kernel_bind, detached, Call.put_bind]
  subst kernelEq
  unfold finish Call.finish
  simp only [Call.kernel_bind]
  refine Call.bind_agree_of_acts (alarm.passAll_eq _ _ attended)
    (Call.acts_forM (Call.acts_passOn thread.id) _) fun _ passed passedEq passedCpu => ?_
  simp only [Call.update_bind, Call.kernel_bind, Call.log_bind]
  generalize endedEq : Machine.emit _ (.log (.terminated _)) = ended
  have kernelEq : ended.kernel = m.kernel.ended thread := by
    rw [← endedEq]
    change passed.kernel.markTerminated thread.id = _
    rw [passedEq]
    rfl
  have cpuEq : ended.cpu = m.cpu := by
    rw [← endedEq]
    exact passedCpu
  apply alarm.announceEnd_eq
  intro current
  rw [kernelEq, Kernel.running?, Kernel.cpus_ended, handle] at current
  rw [kernelEq, cpuEq]
  exact h.endedHere begun found busy alive current

theorem reapThread_eq (counted : m.kernel.threads.records.Counted) (id : ThreadId) :
    alarm.reapThread id m = Call.reapThread id m := by
  unfold reapThread Call.reapThread
  simp only [Call.kernel_bind]
  cases removed : m.kernel.threads.remove id with
  | none => rfl
  | some entry =>
    obtain ⟨⟨found, records⟩, taken, _⟩ := Option.map_eq_some_iff.mp removed
    dsimp only
    rw [alarm.subtract_of_le (SlotTable.counted_take counted taken).1, pure_bind]

theorem reapThreads_eq (counted : m.kernel.threads.records.Counted) (ids : List ThreadId) :
    alarm.reapThreads ids m = Call.reapThreads ids m := by
  induction ids generalizing m with
  | nil => rfl
  | cons id rest ih =>
    refine Call.bind_agree_of_acts (alarm.reapThread_eq counted id) (Call.acts_reapThread id)
      fun _ between kernelEq _ => Call.bind_agree_left ?_ _
    apply ih
    rw [kernelEq]
    exact (Kernel.continues_reapThread m.kernel id).records.counted counted

theorem discardThreads_eq (counted : m.kernel.threads.records.Counted) (mark : Nat) :
    alarm.discardThreads mark m = Call.discardThreads mark m := by
  unfold discardThreads Call.discardThreads
  simp only [Call.kernel_bind]
  rw [alarm.subtract_of_le, pure_bind]
  exact (SlotTable.counted_truncate counted mark).1

/-- The threads that were registered before the beginning of scheduling failed are all counted. -/
theorem installThreads_eq (counted : m.kernel.threads.records.Counted) (entry : Nat)
    (bootStack : Option StackBounds) :
    alarm.installThreads entry bootStack m = Call.installThreads entry bootStack m := by
  unfold installThreads Call.installThreads
  simp only [Call.kernel_bind, populate_eq]
  apply Call.tryCatch_agree
  apply (Call.ensures_populate entry bootStack m).mono
  · exact fun _ _ _ => trivial
  · intro error partway progress
    apply Call.bind_agree_left
    apply alarm.discardThreads_eq
    have progresses : m.kernel.Progresses m.kernel.timer entry bootStack partway.kernel := by
      rcases progress with ⟨_, _, spends, same⟩ | ⟨_, reserved, adopts, _, _, _, spends, same⟩
      · exact same ▸ .none spends
      · exact same ▸ .some reserved adopts spends
    obtain ⟨_, continues⟩ := Kernel.continues_partway progresses
    exact continues.records.counted counted

/-! ### Calls -/

theorem init_eq (counted : m.kernel.threads.records.Counted) (entry : Nat)
    (bootStack : Option StackBounds) :
    alarm.init entry bootStack m = Call.init entry bootStack m := by
  refine Call.critical_agree (·.threads.records.Counted) counted fun m counted => ?_
  simp only [Call.kernel_bind]
  split
  · rfl
  · apply Call.bind_agree_right
    apply (Call.ensures_startTimer _ _ m).mono
    · rintro _ started ⟨timer, _, kernelEq, _⟩
      apply Call.bind_agree_left
      apply alarm.installThreads_eq
      rwa [kernelEq]
    · exact fun _ _ _ => trivial

theorem yield_eq (h : m.kernel.Regular) : alarm.yield m = Call.yield m := by
  refine Call.begun_agree h fun m h begun => ?_
  simp only [Call.kernel_bind, Call.cpu_bind]
  cases found : m.kernel.cpus[m.cpu]? with
  | none => rfl
  | some slot =>
    dsimp only
    cases current : slot.running with
    | none =>
      apply alarm.switchOver_eq
      exact h.vacated begun found fun id ran => by cases current.symm.trans ran
    | some id =>
      dsimp only
      cases idle : m.kernel.isIdle id with
      | true =>
        cases empty : m.kernel.ready.isEmpty with
        | true => rfl
        | false =>
          apply alarm.switchOver_eq
          apply h.vacated begun found
          intro other ran
          obtain rfl := Option.some.inj (current.symm.trans ran)
          exact .inl idle
      | false =>
        by_cases runs : m.kernel.stateOf? id = some .running
        · simp only [runs, if_true]
          have ran : m.kernel.running? m.cpu = some id := by
            rw [Kernel.running?, found]
            exact current
          -- A thread that runs has a record, and its policy is served.
          have serves : m.kernel.Serves id := h.placement.serves (h.isSome_of_running ran)
          refine Call.bind_agree_of_acts (alarm.makeReady_eq serves) (Call.acts_makeReady id)
            fun _ between kernelEq cpuEq => ?_
          apply alarm.switchOver_eq
          rw [kernelEq, cpuEq]
          exact h.yielded begun ran idle runs
        · simp only [runs, if_false]
          apply alarm.switchOver_eq
          apply h.vacated begun found
          intro other ran
          obtain rfl := Option.some.inj (current.symm.trans ran)
          exact .inr runs

theorem sleep_eq (h : m.kernel.Regular) (wakeAt : Instant → Instant) :
    alarm.sleep wakeAt m = Call.sleep wakeAt m := by
  refine Call.begun_agree h fun m h begun => ?_
  refine Call.caller_agree fun id caller => ?_
  obtain ⟨current, busy, runs⟩ := Kernel.caller_eq_ok_iff.mp caller
  simp only [Call.kernel_bind, enqueue_eq, pure_bind]
  split
  · simp only [Call.log_bind, Call.update_bind]
    apply alarm.switchOver_eq
    exact h.fellAsleep begun current busy runs _
  · rfl

theorem tick_eq (h : m.kernel.Regular) : alarm.tick m = Call.tick m := by
  unfold tick Call.tick
  simp only [Call.kernel_bind]
  split
  · rename_i begun
    refine Call.critical_agree (fun k => k.Regular ∧ k.initialized = true) ⟨h, begun⟩
      fun m holds => ?_
    obtain ⟨h, begun⟩ := holds
    simp only [Call.cpu_bind, Call.kernel_bind]
    cases found : m.kernel.cpus[m.cpu]? with
    | none => rfl
    | some slot =>
      dsimp only
      split
      · rename_i first
        apply Call.bind_agree (alarm.keepTime_eq h.placement)
        apply (Call.ensures_keepTime m).mono
        · rintro _ between ⟨kernelEq, cpuEq, _⟩
          have kept : between.kernel = m.kernel.beforeCharge m.cpu := by
            rw [kernelEq, Kernel.beforeCharge, if_pos first]
          apply Call.bind_agree_left
          apply alarm.charge_eq cpuEq
          · exact kept ▸ h.beforeCharge begun
          · exact kept ▸ Kernel.begun_beforeCharge begun
          · exact kept ▸ Kernel.found_beforeCharge found
        · exact fun _ _ never => never.elim
      · simp only [Call.kernel_bind, pure_bind]
        apply Call.bind_agree_left
        exact alarm.charge_eq rfl h begun found
  · rfl

theorem releaseMutex_eq (counted : m.kernel.mutexes.records.Counted) (id : MutexId) :
    alarm.releaseMutex id m = Call.releaseMutex id m := by
  refine Call.critical_agree (·.mutexes.records.Counted) counted fun m counted => ?_
  simp only [Call.kernel_bind]
  refine Call.answer_agree fun mutexes released => ?_
  unfold MutexTable.release at released
  split at released
  · cases released
  · rename_i taken
    rw [alarm.subtract_of_le (SlotTable.counted_take counted taken).1, pure_bind]

theorem lock_eq (h : m.kernel.Regular) (id : MutexId) : alarm.lock id m = Call.lock id m := by
  refine Call.begun_agree h fun m h begun => ?_
  refine Call.caller_agree fun thread caller => Call.findMutex_agree fun mutex found => ?_
  simp only [Call.update_bind]
  cases outcome : (mutex.lock thread).1 with
  | mustBlock =>
    simp only [Call.log_bind, Call.update_bind]
    apply Call.bind_agree_left
    exact alarm.reschedule_eq (h.blocked begun caller found outcome)
  | acquired => rfl
  | reentered count => rfl

theorem unlock_eq (h : m.kernel.Regular) (id : MutexId) : alarm.unlock id m = Call.unlock id m := by
  refine Call.begun_agree h fun m h begun => ?_
  refine Call.caller_agree fun thread caller => Call.findMutex_agree fun mutex found => ?_
  rw [alarm.giveUpLock_eq, pure_bind]
  simp only [Call.update_bind]
  cases outcome : (mutex.unlock thread).1 with
  | handedOff next =>
    simp only [Call.log_bind]
    apply Call.bind_agree_left
    apply alarm.makeReady_eq
    have passes := (Mutex.unlock_passes outcome).2.2
    exact h.placement.serves_of_place (h.placement.place_of_passes found passes)
  | notOwner => rfl
  | stillHeld => rfl
  | released => rfl

theorem terminate_eq (h : m.kernel.Regular) (id : ThreadId) :
    alarm.terminate id m = Call.terminate id m := by
  refine Call.begun_agree h fun m h begun => ?_
  simp only [Call.kernel_bind]
  cases found : m.kernel.threads.get? id with
  | none => rfl
  | some thread =>
    dsimp only
    cases busy : m.kernel.isIdle id with
    | true => rfl
    | false =>
      by_cases ended : thread.state = .terminated
      · simp only [ended, if_true]
      · simp only [ended, if_false]
        exact alarm.endThread_eq h begun found busy ended

theorem exit_eq (h : m.kernel.Regular) (exitCode : Int) :
    alarm.exit exitCode m = Call.exit exitCode m := by
  apply Call.bind_agree_right
  rw [Call.ensures_critical, Call.ensures_bind]
  refine Call.ensures_caller (fun id _ => ?_) fun _ _ => trivial
  simp only [Call.ensures_bind, Call.ensures_kernel, Call.ensures_log, Call.ensures_pure]
  apply alarm.terminate_eq
  simpa using h

theorem reap_eq (counted : m.kernel.threads.records.Counted) : alarm.reap m = Call.reap m := by
  refine Call.critical_agree (·.threads.records.Counted) counted fun m counted => ?_
  simp only [Call.kernel_bind, Call.put_bind]
  apply alarm.reapThreads_eq
  exact counted

/-- In a kernel that a run leads to every request is carried out without an alarm. -/
theorem perform_eq (regular : m.kernel.Regular) (counted : m.kernel.Counted)
    (operation : Operation) :
    alarm.perform operation m = operation.perform m := by
  cases operation with
  | init entry bootStack => exact Call.map_agree (alarm.init_eq counted.1 entry bootStack) _
  | spawn spec =>
    unfold perform Operation.perform
    rw [spawn_eq]
  | yield => exact Call.map_agree (alarm.yield_eq regular) _
  | tick => exact Call.map_agree (alarm.tick_eq regular) _
  | sleepUntil wake => exact Call.map_agree (alarm.sleep_eq regular _) _
  | sleepFor span => exact Call.map_agree (alarm.sleep_eq regular _) _
  | releaseMutex id => exact Call.map_agree (alarm.releaseMutex_eq counted.2 id) _
  | lock id => exact Call.map_agree (alarm.lock_eq regular id) _
  | unlock id => exact Call.map_agree (alarm.unlock_eq regular id) _
  | terminate id => exact Call.map_agree (alarm.terminate_eq regular id) _
  | exit exitCode => exact Call.map_agree (alarm.exit_eq regular exitCode) _
  | reap => exact Call.map_agree (alarm.reap_eq counted.1) _
  | _ => rfl

end Alarm

namespace Machine

variable {m : Machine}

theorem executeUnder_silent (m : Machine) (cpu : Nat) (operation : Operation) :
    m.executeUnder .silent cpu operation = m.execute cpu operation := by
  unfold executeUnder
  rw [Alarm.perform_silent]
  rfl

theorem executeUnder_eq (reached : m.kernel.Reachable) (alarm : Alarm) (cpu : Nat)
    (operation : Operation) : m.executeUnder alarm cpu operation = m.execute cpu operation := by
  have same : alarm.perform operation { m with cpu, trace := [] } =
      operation.perform { m with cpu, trace := [] } := by
    apply alarm.perform_eq
    · exact reached.regular
    · exact reached.counted
  unfold executeUnder
  rw [same]
  rfl

theorem runUnder_eq (reached : m.kernel.Reachable) (alarm : Alarm) (requests : List Request) :
    m.runUnder alarm requests = m.run requests := by
  induction requests generalizing m with
  | nil => rfl
  | cons request rest ih =>
    have step := executeUnder_eq reached alarm request.cpu request.operation
    calc m.runUnder alarm (request :: rest)
        = (m.executeUnder alarm request.cpu request.operation).machine.runUnder alarm rest := rfl
      _ = (m.execute request.cpu request.operation).machine.runUnder alarm rest := by rw [step]
      _ = m.run (request :: rest) := ih (reached.step request.cpu request.operation)

/-- No alarm is raised in any run: no branch is taken that reports an internal error, and no number
is subtracted from a smaller one. -/
structure NeverAlarmed (m : Machine) : Prop where
  /-- But for the alarms, executing an operation with alarms is executing it, in every state. -/
  faithful : ∀ (before : Machine) cpu operation,
    before.executeUnder .silent cpu operation = before.execute cpu operation
  /-- Whatever an alarm does, be it to fail, to tell or to change the kernel, every run with it and
  every operation executed after the run is as without it. -/
  unraised : ∀ alarm requests cpu operation,
    (m.runUnder alarm requests).executeUnder alarm cpu operation =
      (m.run requests).execute cpu operation
  /-- The slot of a handle is found by subtracting one from a number that is not zero. -/
  handles : ∀ {kind : HandleKind} (id : Handle kind), 1 ≤ id.value ∧ id.index + 1 = id.value
  /-- Who owns a mutex has a lock to give up, also where owner, count and queue are fields that
  nothing ties together, and whatever was done to the mutex since it was new. -/
  locks : ∀ (actions : List Mutex.Action) t, (({} : MutexFields).after actions).owner = some t →
    1 ≤ (({} : MutexFields).after actions).lockCount.toNat

/-- In no run of a new kernel, on whatever processors, is an alarm raised. -/
theorem neverAlarmed {config : Config} {timer : PeriodicTimer} {heap : Heap}
    (made : Kernel.ofConfig config timer heap = .ok m.kernel) : m.NeverAlarmed where
  faithful := executeUnder_silent
  unraised alarm requests cpu operation := by
    have reached : m.kernel.Reachable := .new made
    rw [runUnder_eq reached, executeUnder_eq (reached.run requests)]
  handles id := ⟨id.positive, id.index_add_one⟩
  locks actions _ owns := MutexFields.one_le_lockCount actions owns

/-- A thread that owns a mutex for which others wait ends as it should with any alarm. -/
theorem neverAlarmed_of_contention :
    Kernel.ofConfig { cpus := 2 } .pit {} = .ok twoProcessors.kernel ∧
      ((twoProcessors.run contention).execute 0 (.exit 0)).result = .ok .done ∧
      twoProcessors.NeverAlarmed ∧
      ∀ alarm, ((twoProcessors.runUnder alarm contention).executeUnder alarm 0 (.exit 0)).result =
        .ok .done := by
  have ends : ((twoProcessors.run contention).execute 0 (.exit 0)).result = .ok .done := by
    decide +kernel
  have never := neverAlarmed twoProcessors_made
  refine ⟨twoProcessors_made, ends, never, fun alarm => ?_⟩
  rw [never.unraised, ends]

/-- Alarms go off in kernels that no run leads to. Here scheduling is said to have begun, and there
is no thread. -/
example : (({ twoProcessors with
      kernel := { twoProcessors.kernel with initialized := true } } : Machine).executeUnder
    ⟨fun _ => throw .alreadyInitialized⟩ 0 .yield).result = .error .alreadyInitialized := by
  decide +kernel

end Machine

end ThreadScheduler
