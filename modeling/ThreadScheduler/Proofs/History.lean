/-
Module: ThreadScheduler.Proofs.History
Purpose: What a run does, operation by operation. Each operation is seen from outside, by the
  kernels before and after it and by its answer, and it takes one of the courses of its transitions.
Main exports: Moment, Machine.history, Moment.Ends, Course.moved, Kernel.Settled, Moment.Takes,
  Machine.exists_run_of_mem_history
-/
import ThreadScheduler.Proofs.Run

namespace ThreadScheduler

/-- One operation of a run. -/
structure Moment where
  before : Kernel
  cpu : Nat
  operation : Operation
  result : Except SchedulerError Reply
  after : Kernel

namespace Machine

/-- A machine executes an operation. -/
def moment (m : Machine) (request : Request) : Moment where
  before := m.kernel
  cpu := request.cpu
  operation := request.operation
  result := (m.execute request.cpu request.operation).result
  after := (m.execute request.cpu request.operation).machine.kernel

/-- The operations of a run, the first one first. -/
def history (m : Machine) : List Request → List Moment
  | [] => []
  | request :: rest =>
      m.moment request :: (m.execute request.cpu request.operation).machine.history rest

/-- Every operation of a run is executed on the machine that the operations before it lead to. -/
theorem exists_run_of_mem_history {m : Machine} {requests : List Request} {x : Moment}
    (member : x ∈ m.history requests) :
    ∃ past request future, requests = past ++ request :: future ∧
      x = (m.run past).moment request := by
  induction requests generalizing m with
  | nil => cases member
  | cons request rest ih =>
    rcases List.mem_cons.mp member with rfl | later
    · exact ⟨[], request, rest, rfl, rfl⟩
    · obtain ⟨past, next, future, rfl, same⟩ := ih later
      exact ⟨request :: past, next, future, rfl, same⟩

end Machine

/-- A thread that had not ended before ends by an operation. -/
def Moment.Ends (x : Moment) (t : ThreadId) : Prop :=
  x.before.stateOf? t ≠ some .terminated ∧ x.after.stateOf? t = some .terminated

instance (x : Moment) (t : ThreadId) : Decidable (x.Ends t) :=
  inferInstanceAs (Decidable (_ ∧ _))

/-- The kernel in which all threads that an operation moves have moved. -/
def Course.moved : Course → Kernel
  | .stay k => k
  | .dispatch k => k

/-- Two kernels have the same configuration and have counted the same switches, and their slots
differ in what is left of the time slice of one processor at most. -/
structure Kernel.Settled (k k' : Kernel) (here : Nat) : Prop where
  config : k'.config = k.config
  switches : k'.switches = k.switches
  cpus : ∃ slice : CpuSlot → Duration,
    k'.cpus = k.cpus.modify here fun slot => { slot with slice := slice slot }

namespace Kernel.Settled

variable {k k' : Kernel} {here : Nat}

theorem of_cpus (config : k'.config = k.config) (switches : k'.switches = k.switches)
    (cpus : k'.cpus = k.cpus) : k.Settled k' here :=
  ⟨config, switches, (·.slice), cpus.trans (List.modify_id here k.cpus).symm⟩

theorem running? (settled : k.Settled k' here) (cpu : Nat) :
    k'.running? cpu = k.running? cpu := by
  obtain ⟨slice, cpus⟩ := settled.cpus
  rw [running?_of_modify cpus]
  split
  · rename_i same
    rw [same, Kernel.running?]
  · rfl

theorem idle? (settled : k.Settled k' here) (cpu : Nat) : k'.idle? cpu = k.idle? cpu := by
  obtain ⟨slice, cpus⟩ := settled.cpus
  exact idle?_of_modify cpus (fun _ => rfl) cpu

end Kernel.Settled

/-- An operation takes a course in a kernel in which the invariant holds. -/
structure Moment.Takes (x : Moment) (course : Course) : Prop where
  regular : x.before.Regular
  transition : Transition x.before x.cpu x.operation x.result course
  after : x.after = course.kernel x.cpu

theorem Machine.exists_course {m : Machine} (reached : m.kernel.Reachable) (request : Request) :
    ∃ course, (m.moment request).Takes course := by
  obtain ⟨course, transition, same⟩ :=
    m.transition_of_execute request.cpu request.operation
  exact ⟨course, reached.regular, transition, same⟩

namespace Kernel.Installs

variable {k k' : Kernel} {here : Nat} {next t : ThreadId}

theorem terminated (installs : k.Installs k' here next) : k'.terminated = k.terminated := by
  obtain ⟨_, _, _, _, rfl⟩ := installs.frame
  rfl

/-- Giving a processor its next thread ends no thread. -/
theorem stateOf?_of_terminated (installs : k.Installs k' here next)
    (ended : k'.stateOf? t = some .terminated) : k.stateOf? t = some .terminated := by
  obtain ⟨thread, found, state⟩ := Option.map_eq_some_iff.mp ended
  rw [installs.amends] at found
  split at found
  · obtain ⟨_, _, rfl⟩ := Option.map_eq_some_iff.mp found
    cases state
  · rw [get?_vacate] at found
    split at found
    · obtain ⟨_, _, rfl⟩ := Option.map_eq_some_iff.mp found
      cases state
    · simp [stateOf?, found, state]

/-- The next thread comes out of the ready queue, or the queue stays as it is. -/
theorem ready_cases (installs : k.Installs k' here next) :
    k.ready.dequeue = some (next, k'.ready) ∨
      k.ready.dequeue = none ∧ k.idle? here = some next ∧ k'.ready = k.ready := by
  obtain ⟨slot, found, picked⟩ := installs.picked
  refine (pickNext_cases picked).imp_right fun ⟨empty, idle, same⟩ => ⟨empty, ?_, same⟩
  simp [Kernel.idle?, found, idle]

end Kernel.Installs

namespace Moment.Takes

variable {x : Moment} {course : Course} {t id : ThreadId} {thread : Thread}

/-- The invariant holds after the operation, too. -/
theorem regular_after (h : x.Takes course) : x.after.Regular := by
  rw [h.after]
  exact h.transition.regular_kernel h.regular

/-- A course that gives the processor its next thread ends in an installation. -/
theorem exists_installs {k : Kernel} (h : x.Takes (.dispatch k)) :
    ∃ next, k.Installs x.after x.cpu next := by
  rw [h.after]
  exact Kernel.exists_installs (h.transition.regular h.regular).1.idleAssigned

/-- Giving a processor its next thread concerns the records, the slots, the ready queue and the
count of switches. -/
theorem frame (h : x.Takes course) :
    ∃ threads cpus ready switches,
      x.after = { course.moved with threads, cpus, ready, switches } := by
  cases course with
  | stay k => exact ⟨_, _, _, _, h.after⟩
  | dispatch k =>
    obtain ⟨next, installs⟩ := h.exists_installs
    exact installs.frame

theorem mutexes (h : x.Takes course) : x.after.mutexes = course.moved.mutexes := by
  cases course with
  | stay k => rw [h.after]; rfl
  | dispatch k =>
    obtain ⟨next, installs⟩ := h.exists_installs
    exact installs.mutexes

theorem terminated (h : x.Takes course) : x.after.terminated = course.moved.terminated := by
  cases course with
  | stay k => rw [h.after]; rfl
  | dispatch k =>
    obtain ⟨next, installs⟩ := h.exists_installs
    exact installs.terminated

/-- Nobody ends when a processor gets its next thread. -/
theorem stateOf?_moved (h : x.Takes course) (ended : x.after.stateOf? t = some .terminated) :
    course.moved.stateOf? t = some .terminated := by
  cases course with
  | stay k => rw [h.after] at ended; exact ended
  | dispatch k =>
    obtain ⟨next, installs⟩ := h.exists_installs
    exact installs.stateOf?_of_terminated ended

/-- A processor that takes a thread out of the ready queue runs it. -/
theorem ready_cases (h : x.Takes course) :
    x.after.ready = course.moved.ready ∨
      ∃ next, course.moved.ready.dequeue = some (next, x.after.ready) ∧
        x.after.running? x.cpu = some next := by
  cases course with
  | stay k => rw [h.after]; exact .inl rfl
  | dispatch k =>
    obtain ⟨next, installs⟩ := h.exists_installs
    rcases installs.ready_cases with served | ⟨_, _, same⟩
    · exact .inr ⟨next, served, by rw [installs.running?, if_pos rfl]⟩
    · exact .inl same

open Kernel in
/-- Threads move without leaving a processor, and nothing but threads moves. -/
theorem settled_moved (h : x.Takes course) (begun : x.before.initialized = true) :
    x.before.Settled course.moved x.cpu := by
  obtain ⟨k, here, operation, result, after⟩ := x
  obtain ⟨_, transition, _⟩ := h
  dsimp only at begun transition
  cases transition with
  | booted fresh | bootstrapRefused _ fresh | idleRefused _ fresh =>
    cases begun.symm.trans fresh
  | spawned _ admits =>
    obtain ⟨_, _, _, _, _, _, _, rfl⟩ := admits.registers
    obtain ⟨_, _, same⟩ := enqueueReady_frame _ _ _
    exact .of_cpus (by rw [Course.moved, same]) (by rw [Course.moved, same])
      (by rw [Course.moved, same])
  | yielded | handedOff =>
    obtain ⟨_, _, same⟩ := makeReady_frame _ _
    exact .of_cpus (by rw [Course.moved, same]) (by rw [Course.moved, same])
      (by rw [Course.moved, same])
  | replaced =>
    obtain ⟨_, _, _, _, same⟩ := beforeCharge_frame k here
    exact .of_cpus (by rw [Course.moved, same]) (by rw [Course.moved, same])
      (by rw [Course.moved, same])
  | preempted =>
    obtain ⟨_, _, _, _, same⟩ := beforeCharge_frame k here
    obtain ⟨_, _, ready⟩ := makeReady_frame (k.beforeCharge here) _
    exact .of_cpus (by rw [Course.moved, ready, same]) (by rw [Course.moved, ready, same])
      (by rw [Course.moved, ready, same])
  -- Only a charged tick writes to a processor, and only what is left of its slice.
  | @kept _ slice =>
    obtain ⟨_, _, _, _, same⟩ := beforeCharge_frame k here
    rw [same]
    exact ⟨rfl, rfl, fun _ => slice, rfl⟩
  | endedElsewhere | endedHere =>
    obtain ⟨_, _, _, _, _, same⟩ := ended_frame k _
    exact .of_cpus (by rw [Course.moved, same]) (by rw [Course.moved, same])
      (by rw [Course.moved, same])
  | reaped =>
    obtain ⟨_, _, _, same⟩ := reaped_frame k
    exact .of_cpus (by rw [Course.moved, same]) (by rw [Course.moved, same])
      (by rw [Course.moved, same])
  | _ => exact .of_cpus rfl rfl rfl

/-- Threads move without leaving a processor. -/
theorem running?_moved (h : x.Takes course) (begun : x.before.initialized = true) (cpu : Nat) :
    course.moved.running? cpu = x.before.running? cpu := (h.settled_moved begun).running? cpu

/-- The processors keep their idle threads. -/
theorem idle?_moved (h : x.Takes course) (begun : x.before.initialized = true) (cpu : Nat) :
    course.moved.idle? cpu = x.before.idle? cpu := (h.settled_moved begun).idle? cpu

/-- An operation concerns the slot of the executing processor at most. -/
theorem running?_elsewhere (h : x.Takes course) (begun : x.before.initialized = true) {cpu : Nat}
    (elsewhere : cpu ≠ x.cpu) : x.after.running? cpu = x.before.running? cpu := by
  rw [← h.running?_moved begun]
  cases course with
  | stay k => rw [h.after]; rfl
  | dispatch k =>
    obtain ⟨next, installs⟩ := h.exists_installs
    rw [installs.running?, if_neg elsewhere]
    rfl

/-- The processors keep their idle threads, also those that get their next thread. -/
theorem idle?_after (h : x.Takes course) (begun : x.before.initialized = true) (cpu : Nat) :
    x.after.idle? cpu = x.before.idle? cpu := by
  rw [← h.idle?_moved begun]
  cases course with
  | stay k => rw [h.after]; rfl
  | dispatch k =>
    obtain ⟨next, installs⟩ := h.exists_installs
    exact (installs.idle? cpu).trans (Kernel.idle?_vacate k x.cpu cpu)

/-! ### Who ends -/

/-- A thread that is marked as terminated before the processor goes on has ended afterwards. -/
theorem ends_of_endsOnRequest (h : x.Takes course) (moved : course.moved = x.before.ended thread)
    (found : x.before.threads.get? t = some thread) (alive : thread.state ≠ .terminated) :
    x.Ends t := by
  have handle := h.regular.placement.records.handle found
  constructor
  · simpa [Kernel.stateOf?, found] using alive
  · have listed : t ∈ x.after.members .ended := by
      change t ∈ x.after.terminated
      rw [h.terminated, moved, ← handle]
      simp [Kernel.ended, Kernel.markTerminated]
    have stands := ((h.regular_after.placement.listed .ended).mem_iff t).mp listed
    obtain ⟨record, present, ended⟩ := Kernel.exists_thread_of_place? stands
    simp [Kernel.stateOf?, present, Thread.place_eq_ended_iff.mp ended]

/-- No other thread ends by the end of a thread. -/
theorem eq_of_ends (h : x.Takes course) (ends : x.before.Ends course.moved t) (also : x.Ends id) :
    id = t := by
  refine Decidable.byContradiction fun distinct => also.1 ?_
  have ended := h.stateOf?_moved also.2
  obtain ⟨record, present, state⟩ := Option.map_eq_some_iff.mp ended
  by_cases passesOwned : id ∈ x.before.nextOwners t
  · rw [ends.nextOwner passesOwned] at present
    obtain ⟨_, _, rfl⟩ := Option.map_eq_some_iff.mp present
    cases state
  · rw [ends.other distinct passesOwned] at present
    simp [Kernel.stateOf?, present, state]

/-- A thread that ends leaves its level, and its next owners go to the ends of theirs. -/
theorem levels_of_ends (h : x.Takes course) (ends : x.before.Ends course.moved t)
    (ended : x.Ends t) (policy : Policy) :
    course.moved.ready.threadsAt policy =
      (x.before.ready.threadsAt policy).filter (¬ x.Ends ·) ++
        (x.before.nextOwners t).filter (x.before.policyOf? · = some policy) := by
  have once : (x.before.ready.threadsAt policy).Nodup :=
    (h.regular.placement.listed (.level policy)).once
  rw [ends.levels, once.erase_eq_filter]
  congr 1
  apply List.filter_congr
  intro other _
  by_cases same : other = t
  · subst same
    simp [ended]
  · have lives : ¬ x.Ends other := fun also => same (h.eq_of_ends ends also)
    simp [same, lives]

/-- Nobody ends by a change of a record that leaves its thread alive. -/
theorem not_ends_of_amends {change : Thread → Thread} (h : x.Takes course)
    (amends : x.before.Amends course.moved id change)
    (lives : ∀ thread, (change thread).state ≠ .terminated) (t : ThreadId) : ¬ x.Ends t := by
  intro ends
  obtain ⟨record, present, state⟩ := Option.map_eq_some_iff.mp (h.stateOf?_moved ends.2)
  rw [amends] at present
  split at present
  · obtain ⟨old, _, rfl⟩ := Option.map_eq_some_iff.mp present
    exact lives old state
  · exact ends.1 (by simp [Kernel.stateOf?, present, state])

/-- Nobody ends while threads are spared. -/
theorem not_ends_of_spares (h : x.Takes course) (spares : x.before.Spares course.moved)
    (found : x.before.threads.get? t = some thread) : ¬ x.Ends t := by
  intro ends
  have alive : thread.state ≠ .terminated := fun state =>
    ends.1 (by simp [Kernel.stateOf?, found, state])
  obtain ⟨record, present, lives, _⟩ := spares t thread found alive
  have ended := h.stateOf?_moved ends.2
  simp [Kernel.stateOf?, present, lives] at ended

end Moment.Takes

end ThreadScheduler
