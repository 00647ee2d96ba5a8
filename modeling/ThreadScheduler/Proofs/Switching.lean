/-
Module: ThreadScheduler.Proofs.Switching
Purpose: Every change of the thread that runs on a processor is one real switch, made by this
  processor, between two threads whose records exist; and no switch is made otherwise. The records
  are kept until the processor switches again.
Main exports: Moment.loads, Machine.Switches, Machine.SwitchesFaithfully,
  Machine.switchesFaithfully
-/
import ThreadScheduler.Proofs.Dormancy
import ThreadScheduler.Proofs.Execution.Crossing
import ThreadScheduler.Proofs.Placement.Seating
import ThreadScheduler.Proofs.Retirement

namespace ThreadScheduler

/-- The thread that a processor left last. -/
def Kernel.previous? (k : Kernel) (cpu : Nat) : Option ThreadId := k.cpus[cpu]?.bind (·.previous)

/-- What an operation loads for the thread that goes on running, if it is granted. -/
def Moment.loads (x : Moment) : List Event :=
  match x.result with
  | .ok _ => x.operation.loads
  | .error _ => []

variable {x : Moment} {course : Course} {k : Kernel} {cpu : Nat}

/-! ### Records -/

namespace Kernel.Regular

/-- The thread that a processor left last has a record. -/
theorem isSome_of_previous (h : k.Regular) {id : ThreadId} (left : k.previous? cpu = some id) :
    (k.threads.get? id).isSome := by
  obtain ⟨slot, found, previous⟩ := Option.bind_eq_some_iff.mp left
  exact h.placement.occupied.previous found previous

end Kernel.Regular

/-! ### Slots -/

/-- An operation that lets the processor get its next thread is granted. -/
theorem Transition.granted_of_dispatch {here : Nat} {operation : Operation}
    {result : Except SchedulerError Reply} {moved : Kernel}
    (h : Transition k here operation result (.dispatch moved)) :
    operation.Dispatches ∧ ∃ reply, result = .ok reply := by
  cases h with
  | vacated | yielded | preempted | replaced | blocked => exact ⟨trivial, _, rfl⟩
  | fellAsleep _ _ asked =>
    refine ⟨?_, _, rfl⟩
    cases operation with
    | sleepUntil | sleepFor => trivial
    | _ => cases asked
  | endedHere _ asked =>
    refine ⟨?_, _, rfl⟩
    cases operation with
    | terminate | exit => trivial
    | _ => exact asked.elim

namespace Kernel

variable {k' : Kernel} {here : Nat}

/-- The thread that a processor left last does not depend on what is left of a time slice. -/
theorem Settled.previous? (settled : k.Settled k' here) (cpu : Nat) :
    k'.previous? cpu = k.previous? cpu := by
  obtain ⟨slice, cpus⟩ := settled.cpus
  unfold Kernel.previous?
  rw [cpus, List.getElem?_modify]
  cases k.cpus[cpu]? with
  | none => rfl
  | some slot => by_cases same : here = cpu <;> simp [same]

theorem Settled.elsewhere (settled : k.Settled k' here) (elsewhere : cpu ≠ here) :
    k'.cpus[cpu]? = k.cpus[cpu]? := by
  obtain ⟨slice, cpus⟩ := settled.cpus
  rw [cpus, List.getElem?_modify_ne _ _ elsewhere.symm]

end Kernel

/-- The executing processor keeps its thread, and no switch is counted. -/
structure Moment.Stays (x : Moment) : Prop where
  running : x.after.running? x.cpu = x.before.running? x.cpu
  previous : x.after.previous? x.cpu = x.before.previous? x.cpu
  switches : x.after.switches = x.before.switches

/-- The executing processor leaves a thread for another one, and the switch is counted. -/
structure Moment.Leaves (x : Moment) (p n : ThreadId) : Prop where
  ran : x.before.running? x.cpu = some p
  runs : x.after.running? x.cpu = some n
  distinct : p ≠ n
  previous : x.after.previous? x.cpu = some p
  switches : x.after.switches = x.before.switches + 1

namespace Moment.Takes

/-- Before scheduling begins no slot changes and no switch is counted. -/
theorem fresh_cpus (h : x.Takes course) (fresh : x.before.initialized = false)
    (waits : x.boots = false) :
    x.after.cpus = x.before.cpus ∧ x.after.switches = x.before.switches := by
  have blank := h.regular.orderly.blank fresh
  obtain ⟨k, here, operation, result, after⟩ := x
  obtain ⟨_, transition, same⟩ := h
  dsimp only at fresh transition same blank
  subst same
  cases transition with
  | booted => cases waits
  | bootstrapRefused => exact ⟨blank.cpus_emptied rfl, rfl⟩
  | idleRefused _ _ _ _ adopted =>
    have length := adopted.length
    obtain ⟨_, _, _, _, rfl⟩ := adopted.frame
    exact ⟨blank.cpus_emptied length, rfl⟩
  | reaped =>
    obtain ⟨_, _, _, same⟩ := Kernel.reaped_frame k
    change k.reaped.cpus = _ ∧ k.reaped.switches = _
    rw [same]
    exact ⟨rfl, rfl⟩
  | refused | denied | answered | subscribed | timerStarted | timerStopped
  | timerInterrupted | ignored
  | mutexCreated | mutexReleased => exact ⟨rfl, rfl⟩
  | _ running => cases fresh.symm.trans running

/-- A processor that gets its next thread goes on with the one it has or leaves it. -/
theorem stays_or_leaves (h : x.Takes course) (begun : x.before.initialized = true) :
    x.Stays ∨ ∃ p n, x.Leaves p n := by
  have settled := h.settled_moved begun
  cases course with
  | stay k =>
    have after : x.after = k := h.after
    left
    constructor
    · rw [after]
      exact settled.running? x.cpu
    · rw [after]
      exact settled.previous? x.cpu
    · rw [after]
      exact settled.switches
  | dispatch k =>
    have after : x.after = k.redispatch x.cpu := h.after
    obtain ⟨next, installs⟩ := h.exists_installs
    obtain ⟨slot, found, picked⟩ := installs.picked
    have seated : x.after.cpus[x.cpu]? = some (slot.seat next k.config.quantum) := by
      rw [after, Kernel.cpus_redispatch found picked]
      simp [found]
    have runs : x.after.running? x.cpu = some next := by
      simp [Kernel.running?, seated, CpuSlot.seat]
    have ran : x.before.running? x.cpu = slot.running := by
      rw [← settled.running? x.cpu]
      change k.running? x.cpu = slot.running
      simp [Kernel.running?, found]
    have left : x.before.previous? x.cpu = slot.previous := by
      rw [← settled.previous? x.cpu]
      change k.previous? x.cpu = slot.previous
      simp [Kernel.previous?, found]
    have inside : x.cpu < x.before.cpus.length := by
      obtain ⟨slice, cpus⟩ := settled.cpus
      have length : k.cpus.length = x.before.cpus.length := by
        rw [show k.cpus = _ from cpus, List.length_modify]
      rw [← length]
      exact (List.getElem?_eq_some_iff.mp found).1
    have idleAssigned := (h.regular.orderly.idleAssigned begun x.cpu inside).2
    obtain ⟨p, current⟩ := Option.isSome_iff_exists.mp (ran ▸ idleAssigned)
    -- The processor may pick the thread that it ran, and that is no switch.
    by_cases same : p = next
    · left
      subst same
      refine ⟨by rw [runs, ran, current], ?_, ?_⟩
      · rw [left]
        simp [Kernel.previous?, seated, CpuSlot.seat, current]
      · rw [after, Kernel.switches_redispatch_of_same found picked current]
        exact settled.switches
    · right
      have previous : x.after.previous? x.cpu = some p := by
        simp [Kernel.previous?, seated, CpuSlot.seat, current, same]
      have entered := h.regular_after.isSome_of_running runs
      have kept := h.regular_after.isSome_of_previous previous
      rw [after] at entered kept
      refine ⟨p, next, ran.trans current, runs, same, previous, ?_⟩
      rw [after, Kernel.switches_redispatch_of_ne found picked current same kept entered]
      exact congrArg (· + 1) settled.switches

/-- The slots of the other processors do not change. -/
theorem slot_elsewhere (h : x.Takes course) (begun : x.before.initialized = true)
    (elsewhere : cpu ≠ x.cpu) : x.after.cpus[cpu]? = x.before.cpus[cpu]? := by
  rw [← (h.settled_moved begun).elsewhere elsewhere]
  cases course with
  | stay k => rw [h.after]; rfl
  | dispatch k =>
    obtain ⟨next, installs⟩ := h.exists_installs
    obtain ⟨slot, found, picked⟩ := installs.picked
    have after : x.after = k.redispatch x.cpu := h.after
    rw [after, Kernel.cpus_redispatch found picked, List.getElem?_modify_ne _ _ elsewhere.symm]
    rfl

end Moment.Takes

/-! ### What is seen -/

/-- The last switch of a processor goes from the thread it left last to the one it runs. -/
theorem Kernel.exists_threads_of_lastSwitch {here : Nat} {p n : ThreadId} {switch : Switch}
    (last : k.lastSwitch? here = some switch) (left : k.previous? here = some p)
    (runs : k.running? here = some n) :
    ∃ old new, k.threads.get? p = some old ∧ k.threads.get? n = some new ∧
      switch = ⟨n, old.context, new.context, new.tls⟩ := by
  obtain ⟨slot, found, previous⟩ := Option.bind_eq_some_iff.mp left
  have running : slot.running = some n := by simpa [Kernel.running?, found] using runs
  have described : k.switch? ⟨p, n⟩ = some switch := by
    simpa [lastSwitch?, found, previous, running] using last
  obtain ⟨old, hasOld, rest⟩ := Option.bind_eq_some_iff.mp described
  obtain ⟨new, hasNew, same⟩ := Option.bind_eq_some_iff.mp rest
  exact ⟨old, new, hasOld, hasNew, (Option.some.inj same).symm⟩

namespace Machine

variable {m : Machine} {request : Request} {requests : List Request} {p n : ThreadId}

/-- The operations that follow a request. -/
def following (m : Machine) (request : Request) : Machine :=
  (m.execute request.cpu request.operation).machine

/-- An operation that counts no switch shows none. -/
theorem crossings_of_uncounted
    (same : (m.following request).kernel.switches = m.kernel.switches) :
    (m.following request).crossings = (m.moment request).loads := by
  unfold following at same ⊢
  cases granted : (m.execute request.cpu request.operation).result with
  | error error => simpa [Moment.loads, moment, granted] using crossings_of_failed granted
  | ok reply =>
    by_cases dispatches : request.operation.Dispatches
    · rcases accounts_execute dispatches granted with steady | ⟨_, _, counted, _⟩
      · have unloaded : request.operation.loads = [] := by
          generalize request.operation = operation at dispatches
          cases operation with
          | setThreadPointer => exact dispatches.elim
          | _ => rfl
        have unseen : (m.execute request.cpu request.operation).machine.crossings = [] :=
          steady.crossings
        simpa [Moment.loads, moment, granted, unloaded] using unseen
      · rw [same] at counted
        simp at counted
    · simpa [Moment.loads, moment, granted] using crossings_execute dispatches granted

/-- A processor that leaves a thread for another one shows exactly this switch. -/
theorem crossings_of_leaves (takes : (m.moment request).Takes course)
    (begun : m.kernel.initialized = true) (leaves : (m.moment request).Leaves p n) :
    ∃ old new, (m.following request).kernel.threads.get? p = some old ∧
      (m.following request).kernel.threads.get? n = some new ∧
      (m.following request).crossings =
        Switch.events ⟨n, old.context, new.context, new.tls⟩
          (m.following request).kernel.subscriptions.switched := by
  have counted : (m.following request).kernel.switches = m.kernel.switches + 1 := leaves.switches
  cases course with
  | stay k =>
    have after : (m.following request).kernel = k := takes.after
    have settled : k.switches = m.kernel.switches := (takes.settled_moved begun).switches
    rw [after, settled] at counted
    simp at counted
  | dispatch k =>
    obtain ⟨dispatches, reply, granted⟩ := takes.transition.granted_of_dispatch
    rcases accounts_execute dispatches granted with steady | ⟨switch, last, _, seen⟩
    · have uncounted : (m.following request).kernel.switches = m.kernel.switches := steady.switches
      rw [uncounted] at counted
      simp at counted
    · obtain ⟨old, new, hasOld, hasNew, rfl⟩ :=
        Kernel.exists_threads_of_lastSwitch last leaves.previous leaves.runs
      exact ⟨old, new, hasOld, hasNew, seen⟩

/-! ### Until the next switch -/

/-- As long as a processor goes on with a thread it remembers the one it left. -/
theorem remembers_run (reached : m.kernel.Reachable) (begun : m.kernel.initialized = true)
    (runs : m.kernel.running? cpu = some n) (left : m.kernel.previous? cpu = some p)
    (goesOn : ∀ x ∈ m.history requests, x.after.running? cpu = some n) :
    (m.run requests).kernel.running? cpu = some n ∧
      (m.run requests).kernel.previous? cpu = some p := by
  induction requests generalizing m with
  | nil => exact ⟨runs, left⟩
  | cons request rest ih =>
    obtain ⟨course, takes⟩ := exists_course reached request
    obtain ⟨still, later⟩ := List.forall_mem_cons.mp goesOn
    refine ih (reached.step request.cpu request.operation) (takes.begun_after begun) still ?_ later
    change (m.moment request).after.previous? cpu = some p
    by_cases here : cpu = request.cpu
    · subst here
      rcases takes.stays_or_leaves begun with stays | ⟨p', n', leaves⟩
      · exact stays.previous.trans left
      · have old : p' = n := Option.some.inj (leaves.ran.symm.trans runs)
        have new : n' = n := Option.some.inj (leaves.runs.symm.trans still)
        exact absurd (old.trans new.symm) leaves.distinct
    · have kept : (m.moment request).after.previous? cpu = m.kernel.previous? cpu := by
        rw [Kernel.previous?, takes.slot_elsewhere begun here]
        rfl
      rw [kept, left]

/-- A processor goes from thread `p` to thread `n` by an operation. -/
structure Switches (m : Machine) (request : Request) (p n : ThreadId) : Prop where
  distinct : p ≠ n
  counted : (m.following request).kernel.switches = m.kernel.switches + 1
  left : (m.following request).kernel.previous? request.cpu = some p
  /-- Subscribers are told of the next thread, its local storage is loaded, and the contexts are
  exchanged once. Both records are there. -/
  seen : ∃ old new, (m.following request).kernel.threads.get? p = some old ∧
    (m.following request).kernel.threads.get? n = some new ∧
    (m.following request).crossings =
      (if (m.following request).kernel.subscriptions.switched then [.switched n] else []) ++
        [.threadPointer new.tls, .contextSwitch old.context new.context]
  /-- Both records are kept until the processor goes on with another thread. -/
  kept : ∀ requests, (∀ x ∈ (m.following request).history requests,
      x.after.running? request.cpu = some n) →
    (((m.following request).run requests).kernel.threads.get? p).isSome ∧
      (((m.following request).run requests).kernel.threads.get? n).isSome

/-- Processors change their running threads by switches only, and switch only then. The beginning of
scheduling is no such change: nobody runs before. -/
structure SwitchesFaithfully (m : Machine) : Prop where
  idleAssigned : m.kernel.initialized = true → ∀ cpu < m.kernel.config.cpus,
    ∃ n idle, m.kernel.running? cpu = some n ∧ (m.kernel.threads.get? n).isSome ∧
      m.kernel.idle? cpu = some idle ∧ (m.kernel.threads.get? idle).isSome
  once : m.kernel.initialized = true → ∀ request, (m.moment request).boots = false
  elsewhere : ∀ request, (m.moment request).boots = false → ∀ cpu ≠ request.cpu,
    (m.following request).kernel.cpus[cpu]? = m.kernel.cpus[cpu]?
  idle : ∀ request, (m.moment request).boots = false → ∀ cpu,
    (m.following request).kernel.idle? cpu = m.kernel.idle? cpu
  switches : ∀ request, (m.moment request).boots = false →
    (m.following request).kernel.running? request.cpu ≠ m.kernel.running? request.cpu →
      ∃ p n, m.kernel.running? request.cpu = some p ∧
        (m.following request).kernel.running? request.cpu = some n ∧ m.Switches request p n
  /-- Without a switch nothing of the sort is seen, except that a thread may set the address of its
  own local storage. -/
  stays : ∀ request, (m.moment request).boots = false →
    (m.following request).kernel.running? request.cpu = m.kernel.running? request.cpu →
      (m.following request).crossings = (m.moment request).loads ∧
        (m.following request).kernel.previous? request.cpu = m.kernel.previous? request.cpu ∧
        (m.following request).kernel.switches = m.kernel.switches

theorem switches_of_leaves (reached : m.kernel.Reachable) (begun : m.kernel.initialized = true)
    (takes : (m.moment request).Takes course) (leaves : (m.moment request).Leaves p n) :
    m.Switches request p n where
  distinct := leaves.distinct
  counted := leaves.switches
  left := leaves.previous
  seen := crossings_of_leaves takes begun leaves
  kept requests goesOn := by
    have still := reached.step request.cpu request.operation
    obtain ⟨runs, left⟩ := remembers_run still (takes.begun_after begun) leaves.runs leaves.previous
      goesOn
    have regular := (still.run requests).regular
    exact ⟨regular.isSome_of_previous left, regular.isSome_of_running runs⟩

/-- Scheduling begins once. -/
theorem boots_eq_false_of_begun (begun : m.kernel.initialized = true) (request : Request) :
    (m.moment request).boots = false := by
  obtain ⟨course, transition, _⟩ := m.transition_of_execute request.cpu request.operation
  unfold Moment.boots
  split
  · rename_i asked granted
    rw [show Step.result _ = _ from granted, show request.operation = _ from asked] at transition
    cases transition with
    | booted fresh => cases begun.symm.trans fresh
    | answered _ _ inquiry => exact inquiry.elim
    | stayedAwake _ asked | fellAsleep _ _ asked => cases asked
    | endedElsewhere _ asked | endedHere _ asked => exact asked.elim
  · rfl

theorem switchesFaithfully (reached : m.kernel.Reachable) : m.SwitchesFaithfully where
  idleAssigned begun cpu inside := by
    have regular := reached.regular
    obtain ⟨idle, running⟩ := regular.orderly.idleAssigned begun cpu
      (regular.orderly.length ▸ inside)
    obtain ⟨owned, hasIdle⟩ := Option.isSome_iff_exists.mp idle
    obtain ⟨n, runs⟩ := Option.isSome_iff_exists.mp running
    exact ⟨n, owned, runs, regular.isSome_of_running runs, hasIdle, regular.isSome_of_idle hasIdle⟩
  once := boots_eq_false_of_begun
  elsewhere request waits cpu elsewhere := by
    obtain ⟨course, takes⟩ := exists_course reached request
    cases begun : m.kernel.initialized with
    | true => exact takes.slot_elsewhere begun elsewhere
    | false => exact congrArg (·[cpu]?) (takes.fresh_cpus begun waits).1
  idle request waits cpu := by
    obtain ⟨course, takes⟩ := exists_course reached request
    cases begun : m.kernel.initialized with
    | true => exact takes.idle?_after begun cpu
    | false =>
      change (m.moment request).after.idle? cpu = (m.moment request).before.idle? cpu
      rw [Kernel.idle?, (takes.fresh_cpus begun waits).1, Kernel.idle?]
  switches request waits changed := by
    obtain ⟨course, takes⟩ := exists_course reached request
    cases begun : m.kernel.initialized with
    | true =>
      rcases takes.stays_or_leaves begun with stays | ⟨p, n, leaves⟩
      · exact absurd stays.running changed
      · exact ⟨p, n, leaves.ran, leaves.runs, switches_of_leaves reached begun takes leaves⟩
    | false =>
      have same : (m.moment request).after.running? request.cpu =
          (m.moment request).before.running? request.cpu := by
        rw [Kernel.running?, (takes.fresh_cpus begun waits).1, Kernel.running?]
      exact absurd same changed
  stays request waits same := by
    obtain ⟨course, takes⟩ := exists_course reached request
    have unchanged : (m.moment request).Stays := by
      cases begun : m.kernel.initialized with
      | true =>
        rcases takes.stays_or_leaves begun with stays | ⟨p, n, leaves⟩
        · exact stays
        · -- Else the processor would still run the thread that it left.
          have ran : (m.following request).kernel.running? request.cpu = some p :=
            same.trans leaves.ran
          exact absurd (Option.some.inj (ran.symm.trans leaves.runs)) leaves.distinct
      | false =>
        obtain ⟨cpus, switches⟩ := takes.fresh_cpus begun waits
        refine ⟨same, ?_, switches⟩
        rw [Kernel.previous?, cpus, Kernel.previous?]
    exact ⟨crossings_of_uncounted unchanged.switches, unchanged.previous, unchanged.switches⟩

/-- The second processor leaves its idle thread 3 for thread 4 by yielding. -/
theorem switchesFaithfully_of_contention :
    (twoProcessors.run (contention.take 6)).SwitchesFaithfully ∧
      (twoProcessors.run (contention.take 6)).kernel.running? 1 = some (.ofIndex 2) ∧
      ((twoProcessors.run (contention.take 6)).following ⟨1, .yield⟩).kernel.running? 1 =
        some (.ofIndex 3) := by
  have reached := reachable_twoProcessors.run (contention.take 6)
  exact ⟨switchesFaithfully reached, by decide +kernel, by decide +kernel⟩

end Machine

end ThreadScheduler
