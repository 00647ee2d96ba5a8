/-
Module: ThreadScheduler.Proofs.Priority
Purpose: Who gets a processor: the thread that has waited longest at the highest level where anybody
  waits, and an idle thread only if nobody waits at all. Over whole runs no thread overtakes one
  that waits ahead of it at its level.
Main exports: ReadyQueue.Ahead, Moment.ServesBest, Moment.Takes.servesBest,
  Moment.Takes.keepsBehind, Machine.StrictPriority, Machine.strictPriority
-/
import ThreadScheduler.Proofs.Finality

namespace ThreadScheduler

open Kernel

/-- One thread waits ahead of another one at the same level. -/
def ReadyQueue.Ahead (q : ReadyQueue) (a b : ThreadId) : Prop :=
  ∃ policy, [a, b].Sublist (q.threadsAt policy)

/-- One thread cannot get a processor before another one that waits: it waits behind that one, or it
has ended without a processor. -/
def Kernel.KeepsBehind (k : Kernel) (a b : ThreadId) : Prop :=
  k.ready.Ahead a b ∨ k.Gone b ∧ ∀ cpu, k.running? cpu ≠ some b

/-- A processor goes on with a thread that is no idle one: the longest waiting at the highest level
where anybody waits. -/
structure Moment.ServesFirst (x : Moment) (waiting : ReadyQueue) (t : ThreadId) : Prop where
  busy : x.before.isIdle t = false
  first : ∃ policy, x.after.policyOf? t = some policy ∧
    waiting.threadsAt policy = t :: x.after.ready.threadsAt policy ∧
    (∀ other, other ≠ policy → x.after.ready.threadsAt other = waiting.threadsAt other) ∧
    ∀ higher, higher.Outranks policy → waiting.threadsAt higher = []
  /-- Nobody who waits still is more important. -/
  best : ∀ other ∈ x.after.ready.toList, ∀ p q, x.after.policyOf? t = some p →
    x.after.policyOf? other = some q → ¬ q.Outranks p

/-- A processor idles because nobody waits. -/
structure Moment.Idles (x : Moment) (waiting : ReadyQueue) (t : ThreadId) : Prop where
  own : x.before.idle? x.cpu = some t
  empty : waiting.toList = []
  same : x.after.ready = waiting

/-- How an operation leaves the processors, when all threads that it moves have moved. -/
structure Moment.ServesBest (x : Moment) (course : Course) : Prop where
  takes : x.Takes course
  /-- Threads that have moved stand behind those that waited before. -/
  behind : ∀ policy, (x.before.ready.threadsAt policy).filter (¬ x.Ends ·) <+:
    course.moved.ready.threadsAt policy
  elsewhere : ∀ cpu, cpu ≠ x.cpu → x.after.running? cpu = x.before.running? cpu
  stays : ∀ k, course = .stay k →
    x.after.running? x.cpu = x.before.running? x.cpu ∧ x.after.ready = k.ready
  serves : ∀ k, course = .dispatch k → ∃ t, x.after.running? x.cpu = some t ∧
    (x.ServesFirst k.ready t ∨ x.Idles k.ready t)

/-! ### Levels -/

namespace Kernel

variable {k base : Kernel} {here : Nat} {id a b : ThreadId} {served policy : Policy}

theorem threadsAt_prefix_enqueueReady (same : base.ready = k.ready) :
    k.ready.threadsAt policy <+: (base.enqueueReady id served).1.ready.threadsAt policy := by
  unfold enqueueReady
  split
  · rename_i ready queued
    change _ <+: ready.threadsAt policy
    rw [ReadyQueue.threadsAt_of_enqueue queued, same]
    split
    · exact List.prefix_append _ _
    · exact List.prefix_rfl
  · exact same ▸ List.prefix_rfl

theorem threadsAt_prefix_makeReady (same : base.ready = k.ready) :
    k.ready.threadsAt policy <+: (base.makeReady id).1.ready.threadsAt policy := by
  unfold makeReady
  split
  · exact same ▸ List.prefix_rfl
  · exact threadsAt_prefix_enqueueReady same

theorem threadsAt_prefix_makeReadyAll (ids : List ThreadId) (same : base.ready = k.ready) :
    k.ready.threadsAt policy <+: (base.makeReadyAll ids).ready.threadsAt policy := by
  induction ids generalizing base k with
  | nil => exact same ▸ List.prefix_rfl
  | cons id rest ih => exact (threadsAt_prefix_makeReady same).trans (ih rfl)

theorem threadsAt_prefix_beforeCharge (k : Kernel) (here : Nat) (policy : Policy) :
    k.ready.threadsAt policy <+: (k.beforeCharge here).ready.threadsAt policy := by
  unfold beforeCharge
  split
  · exact threadsAt_prefix_makeReadyAll k.woken rfl
  · exact List.prefix_rfl

/-- Two threads wait, and they are two. -/
theorem Placement.stands_of_ahead (h : k.Placement) (ahead : k.ready.Ahead a b) :
    a ≠ b ∧ ∃ policy, k.place? b = some (.inside (.level policy)) := by
  obtain ⟨policy, order⟩ := ahead
  have listed := h.listed (.level policy)
  have once : [a, b].Nodup := order.nodup listed.once
  exact ⟨by simpa using once, policy, (listed.mem_iff b).mp (order.subset (by simp))⟩

theorem Placement.not_running_of_keepsBehind (h : k.Placement) (behind : k.KeepsBehind a b)
    (cpu : Nat) : k.running? cpu ≠ some b := by
  rcases behind with ahead | ⟨_, away⟩
  · obtain ⟨_, policy, stands⟩ := h.stands_of_ahead ahead
    exact h.not_running_of_place stands (by simp) cpu
  · exact away cpu

end Kernel

namespace Moment.Takes

variable {x : Moment} {course : Course} {a b t : ThreadId} {policy : Policy}

/-- Whoever waits for a processor when all threads have moved does not end. -/
theorem not_ends_of_mem_level (h : x.Takes course)
    (member : t ∈ course.moved.ready.threadsAt policy) : ¬ x.Ends t := by
  intro ends
  have ended := h.stateOf?_moved ends.2
  have regular := h.transition.regular h.regular
  cases course with
  | stay k =>
    obtain ⟨thread, found, place⟩ := exists_thread_of_place?
      (((regular.placement.listed (.level policy)).mem_iff t).mp member)
    simp [Course.moved, stateOf?, found, (Thread.place_eq_level_iff.mp place).1] at ended
  | dispatch k =>
    obtain ⟨thread, found, place⟩ := exists_thread_of_place?
      (((regular.1.placement.listed (.level policy)).mem_iff t).mp member)
    have state := (Thread.place_eq_level_iff.mp place).1
    rw [get?_vacate, if_neg] at found
    · simp [Course.moved, stateOf?, found, state] at ended
    · rintro ⟨_, runs⟩
      cases runs.symm.trans ended

/-- Nobody left a level, so nobody ended who waited there. -/
private theorem prefix_of_grows (h : x.Takes course)
    (grows : x.before.ready.threadsAt policy <+: course.moved.ready.threadsAt policy) :
    (x.before.ready.threadsAt policy).filter (¬ x.Ends ·) <+:
      course.moved.ready.threadsAt policy := by
  rw [List.filter_eq_self.mpr]
  · exact grows
  · intro t member
    simpa using h.not_ends_of_mem_level (grows.subset member)

/-- A thread that ends leaves its level, and its next owners stand at the ends of theirs. -/
private theorem prefix_of_ended {thread : Thread} (h : x.Takes course)
    (found : x.before.threads.get? t = some thread) (alive : thread.state ≠ .terminated)
    (busy : x.before.isIdle t = false) (moved : course.moved = x.before.ended thread) :
    (x.before.ready.threadsAt policy).filter (¬ x.Ends ·) <+:
      course.moved.ready.threadsAt policy := by
  have ends : x.before.Ends course.moved t :=
    moved ▸ h.regular.placement.ends_ended (h.regular.strange t) found busy alive
  rw [h.levels_of_ends ends (h.ends_of_endsOnRequest moved found alive)]
  exact List.prefix_append _ _

/-- Nobody leaves a level before the processor takes its next thread, but a thread that ends, and
nobody who joins it gets ahead of anybody. -/
theorem threadsAt_prefix_moved (h : x.Takes course) (policy : Policy) :
    (x.before.ready.threadsAt policy).filter (¬ x.Ends ·) <+:
      course.moved.ready.threadsAt policy := by
  obtain ⟨k, here, operation, result, after⟩ := x
  obtain ⟨_, transition, _⟩ := id h
  dsimp only at transition
  cases transition with
  | booted _ _ _ adopted | idleRefused _ _ _ _ adopted =>
    obtain ⟨_, _, _, _, rfl⟩ := adopted.frame
    exact h.prefix_of_grows List.prefix_rfl
  | spawned _ admits =>
    obtain ⟨_, _, _, _, _, _, _, rfl⟩ := admits.registers
    exact h.prefix_of_grows (threadsAt_prefix_enqueueReady rfl)
  | yielded | handedOff => exact h.prefix_of_grows (threadsAt_prefix_makeReady rfl)
  | kept | replaced => exact h.prefix_of_grows (threadsAt_prefix_beforeCharge k here policy)
  | preempted =>
    exact h.prefix_of_grows ((threadsAt_prefix_beforeCharge k here policy).trans
      (threadsAt_prefix_makeReady rfl))
  | endedElsewhere _ _ found alive busy | endedHere _ _ found alive busy =>
    exact h.prefix_of_ended found alive busy rfl
  | reaped =>
    obtain ⟨_, _, _, same⟩ := reaped_frame k
    have same : k.reaped.ready = k.ready := by rw [same]
    exact h.prefix_of_grows (same ▸ List.prefix_rfl)
  | _ => exact h.prefix_of_grows List.prefix_rfl

theorem ordered_moved (h : x.Takes course) : course.moved.ready.Ordered := by
  have regular := h.transition.regular h.regular
  cases course with
  | stay k => exact regular.placement.records.ordered
  | dispatch k => exact regular.1.placement.records.ordered

/-! ### Serving -/

/-- A thread that comes out of the ready queue is the one to be served first. -/
private theorem servesFirst {k : Kernel} {next : ThreadId} (h : x.Takes (.dispatch k))
    (begun : x.before.initialized = true) (installs : k.Installs x.after x.cpu next)
    (served : k.ready.dequeue = some (next, x.after.ready)) : x.ServesFirst k.ready next := by
  have vacated := (h.transition.regular h.regular).1.placement
  obtain ⟨policy, head, others, higher⟩ := ReadyQueue.exists_level_of_dequeue h.ordered_moved served
  have waited : next ∈ k.ready.threadsAt policy := head ▸ List.mem_cons_self
  obtain ⟨thread, found, same⟩ :=
    Option.map_eq_some_iff.mp (vacated.policyOf?_of_mem_level waited)
  have named : x.after.policyOf? next = some policy := by
    rw [policyOf?, installs.amends.found found]
    exact congrArg some same
  refine ⟨?_, ⟨policy, named, head, others, higher⟩, fun other waits p q is also outranks => ?_⟩
  · have busy := vacated.busy_of_place (((vacated.listed (.level policy)).mem_iff next).mp waited)
    rw [isIdle_vacate] at busy
    rwa [← isIdle_congr (h.idle?_moved begun)]
  · obtain rfl := Option.some.inj (named.symm.trans is)
    have placement := h.regular_after.placement
    obtain ⟨level, member⟩ := (ReadyQueue.mem_toList_iff placement.records.ordered).mp waits
    obtain rfl := Option.some.inj ((placement.policyOf?_of_mem_level member).symm.trans also)
    have distinct : level ≠ policy := fun eq => Policy.Outranks.irrefl policy (eq ▸ outranks)
    rw [others level distinct, higher level outranks] at member
    cases member

/-- Every operation leaves the executing processor alone or gives it the thread to be served
first. -/
theorem servesBest (h : x.Takes course) (begun : x.before.initialized = true) :
    x.ServesBest course := by
  refine ⟨h, h.threadsAt_prefix_moved, fun cpu => h.running?_elsewhere begun, ?_, ?_⟩
  · rintro k rfl
    rw [h.after]
    exact ⟨h.running?_moved begun x.cpu, rfl⟩
  · rintro k rfl
    obtain ⟨next, installs⟩ := h.exists_installs
    refine ⟨next, by rw [installs.running?, if_pos rfl], ?_⟩
    rcases installs.ready_cases with served | ⟨empty, idle, same⟩
    · exact .inl (h.servesFirst begun installs served)
    · have own : x.before.idle? x.cpu = some next := (h.idle?_moved begun x.cpu).symm.trans idle
      exact .inr ⟨own, ReadyQueue.dequeue_eq_none_iff.mp empty, same⟩

/-! ### Waiting -/

/-- The processor keeps its thread when a thread ends that runs nowhere. -/
theorem stays_of_ends {thread : Thread} (h : x.Takes course)
    (found : x.before.threads.get? t = some thread) (ends : x.Ends t)
    (away : x.before.running? x.cpu ≠ some t) : ∃ k, course = .stay k := by
  obtain ⟨k, here, operation, result, after⟩ := x
  obtain ⟨regular, transition, _⟩ := id h
  dsimp only at found away transition regular
  cases transition with
  | vacated => exact absurd (h.stateOf?_moved ends.2) ends.1
  | yielded =>
    exact absurd ends (h.not_ends_of_amends (amends_makeReady k _) (fun _ => nofun) t)
  | fellAsleep | blocked =>
    exact absurd ends (h.not_ends_of_amends (amends_of_modify rfl) (fun _ => nofun) t)
  | @preempted _ id =>
    have spares := (Regular.spares_beforeCharge k here).trans (.of_makeReady _ id)
    exact absurd ends (h.not_ends_of_spares spares found)
  | replaced =>
    exact absurd ends (h.not_ends_of_spares (Regular.spares_beforeCharge k here) found)
  | endedHere _ _ known alive busy current =>
    have endsOnRequest := regular.placement.ends_ended (regular.strange _) known busy alive
    obtain rfl := h.eq_of_ends endsOnRequest ends
    rw [regular.placement.records.handle known] at current
    exact absurd current away
  | _ => exact ⟨_, rfl⟩

/-- A thread that waits goes on waiting unless it gets the processor or ends. -/
theorem waits_or_leaves (h : x.Takes course) (waits : t ∈ x.before.ready.toList) :
    t ∈ x.after.ready.toList ∨ x.after.running? x.cpu = some t ∨ x.Ends t := by
  by_cases ends : x.Ends t
  · exact .inr (.inr ends)
  have ordered := h.regular.placement.records.ordered
  obtain ⟨policy, member⟩ := (ReadyQueue.mem_toList_iff ordered).mp waits
  have moved : t ∈ course.moved.ready.toList := by
    refine (ReadyQueue.mem_toList_iff h.ordered_moved).mpr ⟨policy, ?_⟩
    exact (h.threadsAt_prefix_moved policy).subset
      (List.mem_filter.mpr ⟨member, by simpa using ends⟩)
  rcases h.ready_cases with same | ⟨next, served, runs⟩
  · exact .inl (same ▸ moved)
  · rw [ReadyQueue.toList_of_dequeue served] at moved
    rcases List.mem_cons.mp moved with rfl | later
    · exact .inr (.inl runs)
    · exact .inl later

/-- Of two threads that wait at a level, the one ahead stays ahead until it gets the processor. -/
theorem ahead_or_runs (h : x.Takes course) (ahead : x.before.ready.Ahead a b) (alive : ¬ x.Ends a)
    (alive' : ¬ x.Ends b) : x.after.ready.Ahead a b ∨ x.after.running? x.cpu = some a := by
  obtain ⟨policy, order⟩ := ahead
  have moved : [a, b].Sublist (course.moved.ready.threadsAt policy) := by
    refine List.Sublist.trans ?_ (h.threadsAt_prefix_moved policy).sublist
    have kept := order.filter (¬ x.Ends ·)
    rwa [List.filter_eq_self.mpr (by simp [alive, alive'])] at kept
  rcases h.ready_cases with same | ⟨next, served, runs⟩
  · exact .inl ⟨policy, same ▸ moved⟩
  · obtain ⟨level, head, others, _⟩ := ReadyQueue.exists_level_of_dequeue h.ordered_moved served
    by_cases here : policy = level
    · subst here
      rw [head] at moved
      by_cases first : a = next
      · exact .inr (first ▸ runs)
      · exact .inl ⟨policy, moved.of_cons_of_ne first⟩
    · exact .inl ⟨policy, (others policy here).symm ▸ moved⟩

theorem not_ends_of_waits (h : x.Takes course) (waits : t ∈ x.after.ready.toList) : ¬ x.Ends t := by
  intro ends
  obtain ⟨policy, stands⟩ := h.regular_after.placement.mem_ready_iff.mp waits
  obtain ⟨thread, found, place⟩ := exists_thread_of_place? stands
  have ended := ends.2
  simp [stateOf?, found, (Thread.place_eq_level_iff.mp place).1] at ended

/-- A thread that is gone when the processor gets its next thread is not taken up. -/
private theorem keepsBehind_of_gone (h : x.Takes course) (begun : x.before.initialized = true)
    (away : ∀ cpu, x.before.running? cpu ≠ some b) (moved : course.moved.Gone b) :
    (∀ cpu, x.after.running? cpu ≠ some b) ∧ x.after.KeepsBehind a b := by
  have apart (cpu : Nat) : x.after.running? cpu ≠ some b :=
    fun runs => away cpu (h.running?_of_gone begun moved runs)
  exact ⟨apart, .inr ⟨h.gone_after moved, apart⟩⟩

/-- Nobody gets a processor in the place of a thread that ends while it waits. -/
private theorem running?_of_ends (h : x.Takes course) (begun : x.before.initialized = true)
    (waits : a ∈ x.before.ready.toList) (ends : x.Ends a) (cpu : Nat) :
    x.after.running? cpu = x.before.running? cpu := by
  obtain ⟨policy, stands⟩ := h.regular.placement.mem_ready_iff.mp waits
  obtain ⟨thread, found, _⟩ := exists_thread_of_place? stands
  have away := h.regular.placement.not_running_of_place stands (by simp) x.cpu
  obtain ⟨k, rfl⟩ := h.stays_of_ends found ends away
  rw [h.after]
  exact h.running?_moved begun cpu

/-- While a thread waits, one behind it gets no processor and does not get ahead. -/
theorem keepsBehind (h : x.Takes course) (waits : a ∈ x.before.ready.toList)
    (behind : x.before.KeepsBehind a b) :
    (∀ cpu, x.after.running? cpu ≠ some b) ∧
      (a ∈ x.after.ready.toList → x.after.KeepsBehind a b) := by
  have placement := h.regular.placement
  have placement' := h.regular_after.placement
  have begun : x.before.initialized = true := by
    obtain ⟨policy, stands⟩ := placement.mem_ready_iff.mp waits
    obtain ⟨thread, found, _⟩ := exists_thread_of_place? stands
    exact h.regular.begun_of_known (Option.isSome_iff_exists.mpr ⟨thread, found⟩)
  have away := placement.not_running_of_keepsBehind behind
  rcases behind with ahead | ⟨gone, _⟩
  · obtain ⟨distinct, policy, stands⟩ := placement.stands_of_ahead ahead
    by_cases ends' : x.Ends b
    · obtain ⟨apart, still⟩ := h.keepsBehind_of_gone begun away (h.gone_of_ends ends')
      exact ⟨apart, fun _ => still⟩
    by_cases ends : x.Ends a
    · have same := h.running?_of_ends begun waits ends
      exact ⟨fun cpu => same cpu ▸ away cpu, fun still => absurd ends (h.not_ends_of_waits still)⟩
    rcases h.ahead_or_runs ahead ends ends' with still | runs
    · exact ⟨placement'.not_running_of_keepsBehind (.inl still), fun _ => .inl still⟩
    · refine ⟨fun cpu => ?_, fun still => ?_⟩
      · by_cases here : cpu = x.cpu
        · rw [here, runs]
          exact fun same => distinct (Option.some.inj same)
        · rw [h.running?_elsewhere begun here]
          exact away cpu
      · obtain ⟨_, stands⟩ := placement'.mem_ready_iff.mp still
        exact absurd runs (placement'.not_running_of_place stands (by simp) x.cpu)
  · obtain ⟨apart, still⟩ :=
      h.keepsBehind_of_gone begun away (gone.of_keepsGone (h.keepsGone_moved begun))
    exact ⟨apart, fun _ => still⟩

end Moment.Takes

/-! ### Runs -/

namespace Machine

/-- How the ready queue serves the threads throughout a run. -/
structure StrictPriority (machine : Machine) (requests : List Request) : Prop where
  /-- Every operation gives a processor the thread to be served first, if it gives it any. -/
  dispatches : ∀ x ∈ machine.history requests, x.before.initialized = true →
    ∃ course, x.ServesBest course
  /-- A thread leaves the queue for a processor or by its end. -/
  departures : ∀ x ∈ machine.history requests, ∀ t ∈ x.before.ready.toList,
    t ∈ x.after.ready.toList ∨ x.after.running? x.cpu = some t ∨ x.Ends t
  /-- Nobody gets a processor while somebody waits who was ahead of them at their level. -/
  inOrder : ∀ a b, machine.kernel.ready.Ahead a b →
    (∀ x ∈ machine.history requests, a ∈ x.before.ready.toList) →
      ∀ x ∈ machine.history requests, ∀ cpu, x.after.running? cpu ≠ some b

/-- A thread that waits is not overtaken in any run. -/
theorem not_running_of_history {machine : Machine} (reached : machine.kernel.Reachable)
    {requests : List Request} {a b : ThreadId}
    (behind : a ∈ machine.kernel.ready.toList → machine.kernel.KeepsBehind a b)
    (waits : ∀ x ∈ machine.history requests, a ∈ x.before.ready.toList) :
    ∀ x ∈ machine.history requests, ∀ cpu, x.after.running? cpu ≠ some b := by
  induction requests generalizing machine with
  | nil =>
    intro x member
    cases member
  | cons request rest ih =>
    obtain ⟨course, takes⟩ := exists_course reached request
    have waiting := waits _ List.mem_cons_self
    obtain ⟨away, later⟩ := takes.keepsBehind waiting (behind waiting)
    intro x member
    rcases List.mem_cons.mp member with rfl | member
    · exact away
    · exact ih (reached.step request.cpu request.operation) later
        (fun x member => waits x (List.mem_cons_of_mem _ member)) x member

/-- In every run, whatever operations it consists of and whatever processors execute them, the most
important threads are served first, and those at a level in their order. -/
theorem strictPriority {machine : Machine} (reached : machine.kernel.Reachable)
    (requests : List Request) : machine.StrictPriority requests := by
  have takes {x : Moment} (member : x ∈ machine.history requests) : ∃ course, x.Takes course := by
    obtain ⟨past, request, _, _, rfl⟩ := exists_run_of_mem_history member
    exact exists_course (reached.run past) request
  refine ⟨fun x member begun => ?_, fun x member t waits => ?_, fun a b ahead waits => ?_⟩
  · obtain ⟨course, takes⟩ := takes member
    exact ⟨course, takes.servesBest begun⟩
  · obtain ⟨course, takes⟩ := takes member
    exact takes.waits_or_leaves waits
  · exact not_running_of_history reached (fun _ => .inl ahead) waits

/-- After the run `contention` another thread, 9, waits behind thread 8 at its level. The first
processor is busy with thread 1 until the second one takes up thread 8. -/
theorem strictPriority_of_rivals :
    let start := twoProcessors.run (contention ++ [⟨0, .spawn { entry := 32, name := "rival" }⟩])
    let requests : List Request := [⟨0, .tick⟩, ⟨0, .lock (.ofIndex 0)⟩, ⟨1, .yield⟩]
    start.kernel.Reachable ∧
      start.kernel.ready.Ahead (.ofIndex 7) (.ofIndex 8) ∧
      (∀ x ∈ start.history requests, .ofIndex 7 ∈ x.before.ready.toList) ∧
      (start.run requests).kernel.running? 1 = some (.ofIndex 7) ∧
      start.StrictPriority requests := by
  refine ⟨reachable_twoProcessors.run _, ⟨.normal, by decide +kernel⟩, by decide +kernel,
    by decide +kernel, strictPriority (reachable_twoProcessors.run _) _⟩

end Machine

end ThreadScheduler
