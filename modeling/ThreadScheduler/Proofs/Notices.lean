/-
Module: ThreadScheduler.Proofs.Notices
Purpose: Subscribers hear of the life of every thread exactly once. They hear of new threads in the
  order of their handles and of nothing that was taken back; and they hear of the end of a thread by
  the operation that ends it, with the thread that runs next in its place.
Main exports: Moment.Succeeds, Machine.told, Machine.Reports, Machine.ReportsLives,
  Machine.reportsLives
-/
import ThreadScheduler.Proofs.Execution.Notices
import ThreadScheduler.Proofs.Handles
import ThreadScheduler.Proofs.Switching

namespace ThreadScheduler

/-- The thread that is new by a notice. -/
def Event.created? : Event → Option ThreadId
  | .created thread => some thread
  | _ => none

/-- The thread that has ended by a notice. -/
def Event.ended? : Event → Option ThreadId
  | .terminated thread _ => some thread
  | _ => none

/-- Somebody wants to hear of the life of threads. -/
structure Kernel.Subscribed (k : Kernel) : Prop where
  created : k.subscriptions.created = true
  terminated : k.subscriptions.terminated = true

/-- The operation lets those who want to hear of the life of threads hear of it. -/
structure Operation.KeepsSubscribers (operation : Operation) : Prop where
  created : operation ≠ .subscribe .created false
  terminated : operation ≠ .subscribe .terminated false

instance (operation : Operation) : Decidable operation.KeepsSubscribers :=
  decidable_of_iff (operation ≠ .subscribe .created false ∧
    operation ≠ .subscribe .terminated false)
    ⟨fun h => ⟨h.1, h.2⟩, fun h => ⟨h.created, h.terminated⟩⟩

/-- Who runs next in the place of a thread that ends: the next thread of the executing processor if
it ran the one that ends, and otherwise the first that waits, or else the idle thread of the
processor that ran the one that ends or of the executing one. -/
structure Moment.Succeeds (x : Moment) (t next : ThreadId) : Prop where
  other : next ≠ t
  alive : ∃ thread, x.after.threads.get? next = some thread ∧ thread.state ≠ .terminated
  here : x.before.running? x.cpu = some t → x.after.running? x.cpu = some next
  elsewhere : x.before.running? x.cpu ≠ some t →
    x.after.ready.toList.head? = some next ∨
      x.after.ready.toList = [] ∧
        x.after.idle? ((x.before.hostOf? t).getD x.cpu) = some next

/-- How a thread ends by an operation: the executing processor asks for it and is granted it, and
gets its next thread exactly if it ran the one that ends. -/
structure Moment.EndsOnRequest (x : Moment) (course : Course) (t : ThreadId) : Prop where
  begun : x.before.initialized = true
  asked : x.before.RequestsEnd x.cpu t x.operation
  granted : x.result = .ok .done
  leaves_iff : x.before.running? x.cpu = some t ↔ ∃ k, course = .dispatch k

namespace Moment.Takes

open Kernel

variable {x : Moment} {course : Course} {t next : ThreadId} {thread : Thread}

/-! ### Subscribers -/

/-- Nobody but who asks for it subscribes to anything or cancels a subscription. -/
theorem subscriptions (h : x.Takes course) :
    x.after.subscriptions = x.before.subscriptions ∨
      ∃ topic wanted, x.operation = .subscribe topic wanted ∧
        x.after.subscriptions = x.before.subscriptions.set wanted topic := by
  obtain ⟨_, _, _, _, frame⟩ := h.frame
  have same : x.after.subscriptions = course.moved.subscriptions := by rw [frame]
  rw [same]
  obtain ⟨k, here, operation, result, after⟩ := x
  have transition := h.transition
  dsimp only at transition ⊢
  cases transition with
  | subscribed topic wanted => exact .inr ⟨topic, wanted, rfl, rfl⟩
  | booted _ _ _ adopted | idleRefused _ _ _ _ adopted =>
    obtain ⟨_, _, _, _, same⟩ := adopted.frame
    left
    rw [Course.moved, same]
    rfl
  | spawned _ admits =>
    obtain ⟨_, _, _, _, _, _, _, rfl⟩ := admits.granted
    obtain ⟨_, _, same⟩ := enqueueReady_frame _ _ _
    left
    rw [Course.moved, same]
  | yielded | handedOff =>
    obtain ⟨_, _, same⟩ := makeReady_frame _ _
    left
    rw [Course.moved, same]
  | kept | replaced =>
    obtain ⟨_, _, _, _, same⟩ := beforeCharge_frame k here
    left
    rw [Course.moved, same]
  | preempted =>
    obtain ⟨_, _, _, _, same⟩ := beforeCharge_frame k here
    obtain ⟨_, _, ready⟩ := makeReady_frame (k.beforeCharge here) _
    left
    rw [Course.moved, ready, same]
  | endedElsewhere | endedHere =>
    obtain ⟨_, _, _, _, _, same⟩ := ended_frame k _
    left
    rw [Course.moved, same]
  | reaped =>
    obtain ⟨_, _, _, same⟩ := reaped_frame k
    left
    change k.reaped.subscriptions = k.subscriptions
    rw [same]
  | _ => exact .inl rfl

theorem subscribed_after (h : x.Takes course) (before : x.before.Subscribed)
    (keeps : x.operation.KeepsSubscribers) : x.after.Subscribed := by
  rcases h.subscriptions with same | ⟨topic, wanted, asked, same⟩
  · exact ⟨same ▸ before.created, same ▸ before.terminated⟩
  · rw [asked] at keeps
    cases wanted with
    | true =>
      cases topic <;> constructor <;>
        simp [same, Subscriptions.set, before.created, before.terminated]
    | false =>
      cases topic with
      | switched =>
        constructor <;> simp [same, Subscriptions.set, before.created, before.terminated]
      | created => exact absurd rfl keeps.created
      | terminated => exact absurd rfl keeps.terminated

/-! ### The operation by which a thread ends -/

/-- A thread that ends is listed, so nobody ends while the list does not grow. -/
private theorem not_ends_of_listed (h : x.Takes course)
    (listed : course.moved.terminated ⊆ x.before.terminated) (t : ThreadId) : ¬ x.Ends t := by
  intro ends
  have entered : t ∈ x.after.terminated :=
    h.regular_after.placement.mem_terminated_iff.mpr ends.2
  rw [h.terminated] at entered
  exact ends.1 (h.regular.placement.mem_terminated_iff.mp (listed entered))

/-- No thread ends but by an operation that asks for its end. -/
theorem endsOnRequest (h : x.Takes course) (ends : x.Ends t) : x.EndsOnRequest course t := by
  -- Nobody ends in a transition that leaves the list of terminated threads alone.
  have spared (same : course.moved.terminated = x.before.terminated) : x.EndsOnRequest course t :=
    absurd ends (h.not_ends_of_listed (fun _ => (same ▸ ·)) t)
  obtain ⟨k, here, operation, result, after⟩ := x
  have transition := h.transition
  have regular := h.regular
  dsimp only at transition regular spared
  cases transition with
  | endedElsewhere begun asked found alive busy elsewhere =>
    obtain rfl := h.eq_of_ends
      (regular.placement.ends_ended (regular.strange _) found busy alive) ends
    rw [regular.placement.records.handle found] at elsewhere
    exact ⟨begun, asked, rfl, fun current => absurd current elsewhere,
      fun ⟨_, same⟩ => nomatch same⟩
  | endedHere begun asked found alive busy current =>
    obtain rfl := h.eq_of_ends
      (regular.placement.ends_ended (regular.strange _) found busy alive) ends
    rw [regular.placement.records.handle found] at current
    exact ⟨begun, asked, rfl, fun _ => ⟨_, rfl⟩, fun _ => current⟩
  | reaped =>
    obtain ⟨_, _, _, same⟩ := reaped_frame k
    refine absurd ends (h.not_ends_of_listed ?_ t)
    change k.reaped.terminated ⊆ k.terminated
    rw [same]
    exact List.filter_sublist.subset
  | booted _ _ _ adopted | idleRefused _ _ _ _ adopted =>
    obtain ⟨_, _, _, _, same⟩ := adopted.frame
    refine spared ?_
    rw [Course.moved, same]
    rfl
  | spawned _ admits =>
    obtain ⟨_, _, _, _, _, _, _, rfl⟩ := admits.granted
    obtain ⟨_, _, same⟩ := enqueueReady_frame _ _ _
    exact spared (by rw [Course.moved, same])
  | yielded | handedOff =>
    obtain ⟨_, _, same⟩ := makeReady_frame _ _
    exact spared (by rw [Course.moved, same])
  | kept | replaced =>
    obtain ⟨_, _, _, _, same⟩ := beforeCharge_frame k here
    exact spared (by rw [Course.moved, same])
  | preempted =>
    obtain ⟨_, _, _, _, same⟩ := beforeCharge_frame k here
    obtain ⟨_, _, ready⟩ := makeReady_frame (k.beforeCharge here) _
    exact spared (by rw [Course.moved, ready, same])
  | _ => exact spared rfl

/-! ### The end of threads in the long run -/

/-- A thread that has not ended keeps a record. -/
theorem isSome_of_alive (h : x.Takes course) (found : x.before.threads.get? t = some thread)
    (alive : thread.state ≠ .terminated) : (x.after.threads.get? t).isSome := by
  have known : (x.before.threads.get? t).isSome := Option.isSome_iff_exists.mpr ⟨thread, found⟩
  have changes := h.transition.keeps_or_alters
  rw [← h.after] at changes
  rcases changes with ⟨keeps, _⟩ | ⟨address, id, _, _, _, same⟩ | recordsChange
  · have same := congrArg Option.isSome (keeps.get? t)
    rwa [Option.isSome_map, Option.isSome_map, known] at same
  · rw [same, ThreadTable.get?_modify]
    split
    · rename_i itself
      rw [Option.isSome_map, ← itself]
      exact known
    · exact known
  · have regular := h.regular
    have begun := regular.begun_of_known known
    obtain ⟨k, here, operation, result, after⟩ := x
    dsimp only at recordsChange regular found known begun ⊢
    cases recordsChange with
    | booted fresh | discarded _ fresh => cases begun.symm.trans fresh
    | spawned admits =>
      obtain ⟨_, _, _, registers, _⟩ := admits.registers
      obtain ⟨_, present, _⟩ := Spares.of_registers registers t thread found alive
      rw [threads_enqueueReady, present]
      rfl
    | reaped =>
      rw [regular.reaps.records, if_neg]
      · exact known
      · intro member
        have ended := (regular.placement.mem_unneeded_iff.mp member).ended
        rw [stateOf?, found] at ended
        exact alive (Option.some.inj ended)

/-- The threads that are gone after an operation were gone before or end by it. -/
theorem gone_after_iff (h : x.Takes course) :
    x.after.Gone t ↔ x.before.Gone t ∨ x.Ends t := by
  constructor
  · intro gone
    by_cases given : t.index < x.before.threads.mark
    · cases found : x.before.threads.get? t with
      | none => exact .inl ⟨given, fun _ present => nomatch found.symm.trans present⟩
      | some thread =>
        by_cases ended : thread.state = .terminated
        · left
          refine ⟨given, fun _ present => ?_⟩
          rw [← Option.some.inj (found.symm.trans present)]
          exact ended
        · right
          obtain ⟨record, present⟩ := Option.isSome_iff_exists.mp (h.isSome_of_alive found ended)
          constructor
          · simpa [stateOf?, found] using ended
          · simp [stateOf?, present, gone.ended record present]
    · -- The thread got its handle by this operation, and a record with it.
      right
      have continues := h.threads_continue.records
      have issued : t ∈ x.threadsIssued := by
        rw [continues.consecutive]
        refine List.mem_map.mpr ⟨t.index, ?_, Handle.ofIndex_index t⟩
        have below := gone.registered
        rw [ThreadTable.mark, continues.length] at below
        exact List.mem_range'_1.mpr ⟨Nat.le_of_not_lt given, below⟩
      obtain ⟨record, present⟩ := Option.isSome_iff_exists.mp (h.isSome_of_threadsIssued issued)
      constructor
      · intro ended
        obtain ⟨_, found, _⟩ := Option.map_eq_some_iff.mp ended
        exact given (ThreadTable.index_lt_mark found)
      · simp [stateOf?, present, gone.ended record present]
  · intro reasons
    rcases reasons with gone | ends
    · refine h.gone ?_ gone
      cases begun : x.before.initialized with
      | true => rfl
      | false =>
        have none := (h.regular.orderly.blank begun).mark
        exact absurd (none ▸ gone.registered) (Nat.not_lt_zero _)
    · exact .of_terminated ends.2

/-- Nobody ends who is gone. -/
theorem not_gone_of_ends (h : x.Takes course) (ends : x.Ends t) : ¬ x.before.Gone t := by
  intro gone
  cases found : x.before.threads.get? t with
  | some thread => exact ends.1 (by simp [stateOf?, found, gone.ended thread found])
  | none =>
    have missing := h.threads_continue.records.vacant t gone.registered found
    have ended := ends.2
    rw [stateOf?, ThreadTable.get?, missing] at ended
    cases ended

/-! ### Who runs next -/

/-- A thread that waits has a record, and has not ended. -/
private theorem alive_of_waits {k : Kernel} (h : k.Placement) (waits : next ∈ k.ready.toList) :
    ∃ thread, k.threads.get? next = some thread ∧ thread.state ≠ .terminated := by
  obtain ⟨policy, stands⟩ := h.mem_ready_iff.mp waits
  obtain ⟨thread, found, place⟩ := exists_thread_of_place? stands
  exact ⟨thread, found, by rw [(Thread.place_eq_level_iff.mp place).1]; exact nofun⟩

/-- An idle thread has a record, and does not end. -/
private theorem alive_of_idle {k : Kernel} (h : k.Placement) {cpu : Nat}
    (idle : k.idle? cpu = some next) :
    ∃ thread, k.threads.get? next = some thread ∧ thread.state ≠ .terminated := by
  have alive {place : Place} (stands : k.place? next = some place)
      (other : place ≠ .inside .ended) :
      ∃ thread, k.threads.get? next = some thread ∧ thread.state ≠ .terminated := by
    obtain ⟨thread, found, same⟩ := exists_thread_of_place? stands
    exact ⟨thread, found, fun ended =>
      other (same.symm.trans (Thread.place_eq_ended_iff.mpr ended))⟩
  rcases h.occupied.idle idle with stands | stands
  · exact alive stands nofun
  · exact alive stands nofun

/-- The thread that has ended is not alive. -/
private theorem ne_of_alive (ends : x.Ends t)
    (alive : ∃ thread, x.after.threads.get? next = some thread ∧ thread.state ≠ .terminated) :
    next ≠ t := by
  rintro rfl
  obtain ⟨thread, found, state⟩ := alive
  have ended := ends.2
  simp [stateOf?, found, state] at ended

/-- The processor that ran the thread goes on with another one, which has not ended. -/
theorem succeeds_here (h : x.Takes course) (ends : x.Ends t)
    (ran : x.before.running? x.cpu = some t) :
    ∃ next, x.after.running? x.cpu = some next ∧ x.Succeeds t next := by
  obtain ⟨k, rfl⟩ := (h.endsOnRequest ends).leaves_iff.mp ran
  obtain ⟨next, installs⟩ := h.exists_installs
  have runs : x.after.running? x.cpu = some next := by rw [installs.running?, if_pos rfl]
  have alive : ∃ thread, x.after.threads.get? next = some thread ∧ thread.state ≠ .terminated := by
    obtain ⟨thread, found⟩ := Option.isSome_iff_exists.mp (h.regular_after.isSome_of_running runs)
    refine ⟨thread, found, fun ended => ?_⟩
    have gone : k.Gone next := .of_terminated (h.stateOf?_moved (by simp [stateOf?, found, ended]))
    exact h.running?_ne_of_gone gone runs
  exact ⟨next, runs, ne_of_alive ends alive, alive, fun _ => runs, fun other => absurd ran other⟩

/-- There is somebody to run next in the place of a thread that ran elsewhere or nowhere. -/
theorem succeeds_elsewhere (h : x.Takes course) (ends : x.Ends t)
    (inside : x.cpu < x.before.config.cpus) (other : x.before.running? x.cpu ≠ some t) :
    ∃ next, x.after.successor? x.cpu (x.before.hostOf? t) = some next ∧ x.Succeeds t next := by
  have begun := (h.endsOnRequest ends).begun
  have placement := h.regular_after.placement
  unfold successor?
  rw [ReadyQueue.peek_eq_head?]
  cases first : x.after.ready.toList.head? with
  | some next =>
    have alive := alive_of_waits placement (List.mem_of_mem_head? first)
    exact ⟨next, rfl, ne_of_alive ends alive, alive, fun here => absurd here other,
      fun _ => .inl first⟩
  | none =>
    have exists_host : (x.before.hostOf? t).getD x.cpu < x.before.cpus.length := by
      cases host : x.before.hostOf? t with
      | none => exact h.regular.orderly.length.symm ▸ inside
      | some cpu => exact (List.findIdx?_eq_some_iff_getElem.mp host).1
    have idle := (h.regular.orderly.idleAssigned begun _ exists_host).1
    rw [← h.idle?_after begun] at idle
    obtain ⟨next, owned⟩ := Option.isSome_iff_exists.mp idle
    have alive := alive_of_idle placement owned
    refine ⟨next, owned, ne_of_alive ends alive, alive, fun here => absurd here other, fun _ => ?_⟩
    exact .inr ⟨List.head?_eq_none_iff.mp first, owned⟩

/-! ### New threads -/

/-- When scheduling begins, the threads there are are those that get handles. -/
theorem ids_of_fresh (h : x.Takes course) (fresh : x.before.initialized = false) :
    x.after.threads.ids = x.threadsIssued := by
  have continues := h.threads_continue.records
  have none : x.before.threads.records.slots.length = 0 := (h.regular.orderly.blank fresh).mark
  have issued := continues.consecutive
  have mark : x.after.threads.mark = x.threadsIssued.length := by
    rw [ThreadTable.mark, continues.length, none, Nat.zero_add]
  rw [none, ← mark, ← List.range_eq_range'] at issued
  rw [issued]
  apply ThreadTable.ids_of_complete
  · exact fun found => h.regular_after.placement.records.handle found
  · intro index inside
    apply h.isSome_of_threadsIssued
    rw [issued]
    exact List.mem_map.mpr ⟨index, List.mem_range.mpr inside, rfl⟩

end Moment.Takes

namespace Machine

variable {m : Machine} {request : Request} {requests : List Request} {course : Course}
  {t next : ThreadId}

/-! ### One operation -/

/-- What subscribers hear of an operation, when somebody wants to hear of the life of threads. -/
inductive Hears (m : Machine) (request : Request) : Prop where
  | ofSwitches {nexts : List ThreadId} (heard : (m.following request).notices = nexts.map .switched)
      (issued : (m.moment request).threadsIssued = []) (alive : ∀ t, ¬ (m.moment request).Ends t)
  | ofThreads
      (heard : (m.following request).notices = (m.moment request).threadsIssued.map .created)
      (alive : ∀ t, ¬ (m.moment request).Ends t)
  /-- The end of a thread is heard before the switch away from it. -/
  | ofEnd {t next : ThreadId}
      (heard : (m.following request).notices = .terminated t next ::
        if m.kernel.running? request.cpu = some t ∧
            (m.following request).kernel.subscriptions.switched = true then [.switched next]
        else [])
      (issued : (m.moment request).threadsIssued = []) (ends : (m.moment request).Ends t)
      (succeeds : (m.moment request).Succeeds t next)

/-- A request to end a thread issues no handle. -/
private theorem threadsIssued_of_requestsEnd {x : Moment} {t : ThreadId}
    (asked : x.before.RequestsEnd x.cpu t x.operation) : x.threadsIssued = [] := by
  obtain ⟨k, here, operation, result, after⟩ := x
  cases operation with
  | terminate | exit => rfl
  | _ => exact asked.elim

/-- A switch of which subscribers hear is one that is seen. -/
private theorem switched_of_crossings {nexts : List ThreadId} {terminationEvents : List Event}
    (heard : m.notices = terminationEvents ++ nexts.map .switched)
    (apart : terminationEvents.filter Event.isCrossing = []) :
    nexts.map .switched = m.crossings.filter Event.isNotice := by
  have shown : m.notices.filter Event.isCrossing = m.crossings.filter Event.isNotice := by
    unfold notices crossings
    rw [List.filter_filter, List.filter_filter]
    simp only [Bool.and_comm]
  rw [← shown, heard, List.filter_append, apart, List.nil_append]
  exact (List.filter_eq_self.mpr (by simp [Event.isCrossing])).symm

/-- Of the end of a thread that runs on the executing processor subscribers hear before the
switch. -/
private theorem hears_of_endHere (takes : (m.moment request).Takes course)
    (ends : (m.moment request).Ends t) (subscribed : (m.following request).kernel.Subscribed)
    (ran : m.kernel.running? request.cpu = some t)
    (keepsGone : ∃ nexts : List ThreadId, (m.following request).notices =
      (m.following request).kernel.terminationEvents t
        ((m.following request).kernel.running? request.cpu) ++ nexts.map .switched) :
    m.Hears request := by
  have endsOnRequest := takes.endsOnRequest ends
  obtain ⟨next, runs, succeeds⟩ := takes.succeeds_here ends ran
  obtain ⟨nexts, heard⟩ := keepsGone
  have runs : (m.following request).kernel.running? request.cpu = some next := runs
  rw [runs, Kernel.terminationEvents, if_pos subscribed.terminated] at heard
  have leaves : (m.moment request).Leaves t next := by
    rcases takes.stays_or_leaves endsOnRequest.begun with stays | ⟨p, n, leaves⟩
    · have same : some next = some t := runs.symm.trans (stays.running.trans ran)
      exact absurd (Option.some.inj same) succeeds.other
    · obtain rfl : p = t := Option.some.inj (leaves.ran.symm.trans ran)
      obtain rfl : n = next := Option.some.inj (leaves.runs.symm.trans runs)
      exact leaves
  obtain ⟨old, new, _, _, seen⟩ := crossings_of_leaves takes endsOnRequest.begun leaves
  have switched := switched_of_crossings heard rfl
  refine .ofEnd ?_ (threadsIssued_of_requestsEnd endsOnRequest.asked) ends succeeds
  rw [heard, switched, seen, Switch.events]
  simp only [ran, true_and]
  split <;> rfl

private theorem hears_of_endElsewhere (takes : (m.moment request).Takes course)
    (ends : (m.moment request).Ends t) (subscribed : (m.following request).kernel.Subscribed)
    (inside : request.cpu < m.kernel.config.cpus)
    (other : m.kernel.running? request.cpu ≠ some t)
    (keepsGone : (m.following request).notices =
      (m.following request).kernel.terminationEvents t
        ((m.following request).kernel.successor? request.cpu (m.kernel.hostOf? t))) :
    m.Hears request := by
  obtain ⟨next, names, succeeds⟩ := takes.succeeds_elsewhere ends inside other
  have names : (m.following request).kernel.successor? request.cpu (m.kernel.hostOf? t) =
      some next := names
  rw [names, Kernel.terminationEvents, if_pos subscribed.terminated] at keepsGone
  refine .ofEnd ?_ (threadsIssued_of_requestsEnd (takes.endsOnRequest ends).asked) ends succeeds
  rw [keepsGone, if_neg fun both => other both.1]
  rfl

/-- Of a thread whose end is asked for and granted subscribers hear if it ends now. -/
private theorem hears_of_requestsEnd (takes : (m.moment request).Takes course) {reply : Reply}
    (granted : (m.moment request).result = .ok reply)
    (asked : m.kernel.RequestsEnd request.cpu t request.operation)
    (subscribed : (m.following request).kernel.Subscribed)
    (inside : request.cpu < m.kernel.config.cpus) : m.Hears request := by
  have heard := notices_of_requestsEnd
    (fun _ _ found => takes.regular.placement.records.handle found)
    asked granted
  by_cases ended : m.kernel.stateOf? t = some .terminated
  · rw [if_pos ended] at heard
    have heard : (m.following request).notices = ([] : List ThreadId).map .switched := heard
    refine .ofSwitches heard (threadsIssued_of_requestsEnd asked) fun other ends => ?_
    obtain rfl := asked.unique (takes.endsOnRequest ends).asked
    exact ends.1 ended
  · rw [if_neg ended] at heard
    have ends : (m.moment request).Ends t :=
      ⟨ended, (takes.terminates asked granted).2.2.ended⟩
    unfold KeepsGone at heard
    by_cases ran : m.kernel.running? request.cpu = some t
    · rw [if_pos ran] at heard
      exact hears_of_endHere takes ends subscribed ran heard
    · rw [if_neg ran] at heard
      exact hears_of_endElsewhere takes ends subscribed inside ran heard

/-- An operation that cannot end a thread ends none. -/
private theorem alive_of_unasked (takes : (m.moment request).Takes course)
    (unasked : ∀ t, ¬ m.kernel.RequestsEnd request.cpu t request.operation) (t : ThreadId) :
    ¬ (m.moment request).Ends t :=
  fun ends => unasked t (takes.endsOnRequest ends).asked

/-- By operations that concern no thread's life subscribers hear of switches at most. -/
private theorem hears_of_plain (takes : (m.moment request).Takes course)
    (plain : ¬ request.operation.BringsNews) : m.Hears request := by
  obtain ⟨nexts, heard⟩ : ∃ nexts : List ThreadId,
      (m.following request).notices = nexts.map .switched := notices_of_plain plain
  have silent : (m.moment request).threadsIssued = [] ∧
      ∀ t, ¬ m.kernel.RequestsEnd request.cpu t request.operation := by
    obtain ⟨cpu, operation⟩ := request
    cases operation with
    | init | spawn | terminate | exit => exact absurd trivial plain
    | _ => exact ⟨rfl, fun _ => id⟩
  exact .ofSwitches heard silent.1 (alive_of_unasked takes silent.2)

/-- Of every operation subscribers hear one of these things. -/
theorem hears (takes : (m.moment request).Takes course)
    (subscribed : (m.following request).kernel.Subscribed)
    (inside : request.cpu < m.kernel.config.cpus) : m.Hears request := by
  cases outcome : (m.moment request).result with
  | error error =>
    have heard : (m.following request).notices = ([] : List ThreadId).map .switched :=
      notices_of_failed outcome
    refine .ofSwitches heard (Moment.threadsIssued_eq_nil fun _ => ⟨error, outcome⟩)
      fun t ends => ?_
    cases outcome.symm.trans (takes.endsOnRequest ends).granted
  | ok reply =>
    obtain ⟨cpu, operation⟩ := request
    have transition := takes.transition
    rw [outcome] at transition
    change Transition m.kernel cpu operation (.ok reply) course at transition
    cases operation with
    | init entry bootStack =>
      -- An attempt that is granted comes before scheduling has begun.
      have fresh : m.kernel.initialized = false := by
        cases transition with
        | booted fresh => exact fresh
        | answered _ _ inquiry => exact inquiry.elim
        | stayedAwake _ asked | fellAsleep _ _ asked => cases asked
        | endedElsewhere _ asked | endedHere _ asked => exact asked.elim
      refine .ofThreads ?_ (alive_of_unasked takes fun _ => False.elim)
      rw [← takes.ids_of_fresh fresh]
      exact (notices_init outcome).trans (if_pos subscribed.created)
    | spawn spec =>
      obtain ⟨id, rfl⟩ : ∃ id, reply = .threadId id := by
        cases transition with
        | spawned => exact ⟨_, rfl⟩
        | answered _ _ inquiry => exact inquiry.elim
        | stayedAwake _ asked | fellAsleep _ _ asked => cases asked
        | endedElsewhere _ asked | endedHere _ asked => exact asked.elim
      refine .ofThreads ?_ (alive_of_unasked takes fun _ => False.elim)
      have issued : (m.moment ⟨cpu, .spawn spec⟩).threadsIssued = [id] := by
        rw [Moment.threadsIssued, outcome]
        rfl
      rw [issued]
      exact (notices_spawn outcome).trans (if_pos subscribed.created)
    | terminate victim => exact hears_of_requestsEnd takes outcome rfl subscribed inside
    | exit exitCode =>
      obtain ⟨t, asked⟩ : ∃ t, m.kernel.RequestsEnd cpu t (.exit exitCode) := by
        cases transition with
        | endedElsewhere _ asked | endedHere _ asked => exact ⟨_, asked⟩
        | answered _ _ inquiry => exact inquiry.elim
        | stayedAwake _ asked | fellAsleep _ _ asked => cases asked
      exact hears_of_requestsEnd takes outcome asked subscribed inside
    | _ => exact hears_of_plain takes id

/-- Subscribers hear rightly of an operation: of the threads that are new by it in their order, of
the thread that ends by it before they hear of a switch, and of nothing if it fails. -/
structure Reports (m : Machine) (request : Request) : Prop where
  created : (m.following request).notices.filterMap Event.created? =
    (m.moment request).threadsIssued
  ended : ∀ t, (m.moment request).Ends t → ∃ next, (m.moment request).Succeeds t next ∧
    (m.following request).notices = .terminated t next ::
      if m.kernel.running? request.cpu = some t ∧
          (m.following request).kernel.subscriptions.switched = true then [.switched next]
      else []
  spared : (∀ t, ¬ (m.moment request).Ends t) →
    (m.following request).notices.filterMap Event.ended? = []
  failed : ∀ error, (m.moment request).result = .error error → (m.following request).notices = []

/-- Of switches alone nobody learns who is new or has ended. -/
private theorem lives_of_switches (nexts : List ThreadId) :
    (nexts.map Event.switched).filterMap Event.created? = [] ∧
      (nexts.map Event.switched).filterMap Event.ended? = [] := by
  simp [Event.created?, Event.ended?]

/-- Of new threads subscribers learn which they are, and no end. -/
private theorem lives_of_threads (ids : List ThreadId) :
    (ids.map Event.created).filterMap Event.created? = ids ∧
      (ids.map Event.created).filterMap Event.ended? = [] := by
  simp [Event.created?, Event.ended?, Function.comp_def]

/-- Of an end subscribers learn whose it is, and of no new thread. -/
private theorem lives_of_end (t next : ThreadId) (seen : Prop) [Decidable seen] :
    (Event.terminated t next :: if seen then [.switched next] else []).filterMap Event.created? =
        [] ∧
      (Event.terminated t next :: if seen then [.switched next] else []).filterMap Event.ended? =
        [t] := by
  split
  · exact ⟨rfl, rfl⟩
  · exact ⟨rfl, rfl⟩

theorem reports (takes : (m.moment request).Takes course)
    (subscribed : (m.following request).kernel.Subscribed)
    (inside : request.cpu < m.kernel.config.cpus) : m.Reports request := by
  have failed error (outcome : (m.moment request).result = .error error) :
      (m.following request).notices = [] := notices_of_failed outcome
  cases hears takes subscribed inside with
  | ofSwitches heard issued alive =>
    constructor
    · rw [heard, issued]
      exact (lives_of_switches _).1
    · exact fun t ends => absurd ends (alive t)
    · intro _
      rw [heard]
      exact (lives_of_switches _).2
    · exact failed
  | ofThreads heard alive =>
    constructor
    · rw [heard]
      exact (lives_of_threads _).1
    · exact fun t ends => absurd ends (alive t)
    · intro _
      rw [heard]
      exact (lives_of_threads _).2
    · exact failed
  | @ofEnd t next heard issued ends succeeds =>
    constructor
    · rw [heard, issued]
      exact (lives_of_end t next _).1
    · intro other also
      obtain rfl := (takes.endsOnRequest ends).asked.unique (takes.endsOnRequest also).asked
      exact ⟨next, succeeds, heard⟩
    · exact fun spared => absurd ends (spared t)
    · exact failed

/-- By an operation subscribers hear of the end of those who end by it, each once. -/
theorem Reports.ended_once (reports : m.Reports request)
    (endsOnRequest : ∀ t, (m.moment request).Ends t →
      m.kernel.RequestsEnd request.cpu t request.operation) :
    ((m.following request).notices.filterMap Event.ended?).Nodup ∧
      ∀ t, t ∈ (m.following request).notices.filterMap Event.ended? ↔
      (m.moment request).Ends t := by
  by_cases someone : ∃ t, (m.moment request).Ends t
  · obtain ⟨t, ends⟩ := someone
    obtain ⟨next, _, heard⟩ := reports.ended t ends
    rw [heard, (lives_of_end t next _).2]
    constructor
    · exact List.pairwise_singleton _ t
    · intro other
      rw [List.mem_singleton]
      constructor
      · rintro rfl
        exact ends
      · exact fun also => (endsOnRequest other also).unique (endsOnRequest t ends)
  · rw [reports.spared fun t ends => someone ⟨t, ends⟩]
    constructor
    · exact List.nodup_nil
    · exact fun t => ⟨nofun, fun ends => absurd ⟨t, ends⟩ someone⟩

/-! ### Runs -/

/-- What subscribers hear in a run, the first notice first. -/
def told (m : Machine) : List Request → List Event
  | [] => []
  | request :: rest => (m.following request).notices ++ (m.following request).told rest

/-- Somebody wants to hear of the life of threads all through a run of the processors there are. -/
structure Observed (m : Machine) (requests : List Request) : Prop where
  subscribed : m.kernel.Subscribed
  keeps : ∀ request ∈ requests, request.operation.KeepsSubscribers
  inside : ∀ request ∈ requests, request.cpu < m.kernel.config.cpus

namespace Observed

variable {rest : List Request}

/-- The subscriptions and the processors stay. -/
theorem following (observed : m.Observed (request :: rest)) (reached : m.kernel.Reachable) :
    (m.following request).Observed rest := by
  obtain ⟨course, takes⟩ := exists_course reached request
  constructor
  · exact takes.subscribed_after observed.subscribed (observed.keeps request List.mem_cons_self)
  · exact fun later member => observed.keeps later (List.mem_cons_of_mem request member)
  · intro later member
    rw [show (m.following request).kernel.config = m.kernel.config from m.config_run [request]]
    exact observed.inside later (List.mem_cons_of_mem request member)

theorem reports (observed : m.Observed (request :: rest)) (reached : m.kernel.Reachable) :
    m.Reports request := by
  obtain ⟨course, takes⟩ := exists_course reached request
  exact Machine.reports takes (observed.following reached).subscribed
    (observed.inside request List.mem_cons_self)

/-- Every operation of the run is heard of rightly. -/
theorem reports_of_split {past future : List Request}
    (observed : m.Observed (past ++ request :: future)) (reached : m.kernel.Reachable) :
    (m.run past).Reports request := by
  induction past generalizing m with
  | nil => exact observed.reports reached
  | cons first past ih => exact ih (observed.following reached) (reached.step _ _)

/-- Subscribers hear of new threads as they get their handles. -/
theorem created (observed : m.Observed requests) (reached : m.kernel.Reachable) :
    (m.told requests).filterMap Event.created? =
      (m.history requests).flatMap Moment.threadsIssued := by
  induction requests generalizing m with
  | nil => rfl
  | cons request rest ih =>
    have first := (observed.reports reached).created
    have later := ih (observed.following reached) (reached.step _ _)
    rw [told, List.filterMap_append, first, later]
    rfl

/-- Subscribers hear of the end of those who end in the run, each once. -/
theorem ended (observed : m.Observed requests) (reached : m.kernel.Reachable) :
    ((m.told requests).filterMap Event.ended?).Nodup ∧
      ∀ t, t ∈ (m.told requests).filterMap Event.ended? ↔
        ¬ m.kernel.Gone t ∧ (m.run requests).kernel.Gone t := by
  induction requests generalizing m with
  | nil => exact ⟨List.nodup_nil, fun t => ⟨nofun, fun both => absurd both.2 both.1⟩⟩
  | cons request rest ih =>
    obtain ⟨course, takes⟩ := exists_course reached request
    have reached' := reached.step request.cpu request.operation
    obtain ⟨onceNow, now⟩ := (observed.reports reached).ended_once
      fun t ends => (takes.endsOnRequest ends).asked
    obtain ⟨onceLater, later⟩ := ih (observed.following reached) reached'
    have goneNow {t : ThreadId} (ends : (m.moment request).Ends t) :
        (m.following request).kernel.Gone t := takes.gone_after_iff.mpr (.inr ends)
    rw [told, List.filterMap_append]
    constructor
    · refine List.nodup_append.mpr ⟨onceNow, onceLater, fun t member other member' same => ?_⟩
      subst same
      exact ((later t).mp member').1 (goneNow ((now t).mp member))
    · intro t
      rw [List.mem_append, now, later]
      constructor
      · rintro (ends | ⟨alive, gone⟩)
        · have begun := takes.begun_after (takes.endsOnRequest ends).begun
          exact ⟨takes.not_gone_of_ends ends, (gone_run reached' begun (goneNow ends) rest).1⟩
        · exact ⟨fun before => alive (takes.gone_after_iff.mpr (.inl before)), gone⟩
      · intro ⟨alive, gone⟩
        by_cases already : (m.following request).kernel.Gone t
        · exact .inl ((takes.gone_after_iff.mp already).resolve_left alive)
        · exact .inr ⟨already, gone⟩

end Observed

/-- Subscribers hear of the life of every thread exactly once: in the order of their handles of
those that are new, and of those that have ended. Of every operation they hear rightly. -/
structure ReportsLives (m : Machine) (requests : List Request) : Prop where
  created : (m.told requests).filterMap Event.created? =
    (List.range (m.run requests).kernel.threads.mark).map .ofIndex
  once : ((m.told requests).filterMap Event.ended?).Nodup
  ended : ∀ t, t ∈ (m.told requests).filterMap Event.ended? ↔ (m.run requests).kernel.Gone t
  reports : ∀ past request future, requests = past ++ request :: future →
    (m.run past).Reports request

/-- Those who subscribe before scheduling begins hear of the life of every thread. -/
theorem reportsLives (reached : m.kernel.Reachable) (fresh : m.kernel.initialized = false)
    (observed : m.Observed requests) : m.ReportsLives requests := by
  have none : m.kernel.threads.mark = 0 := (reached.regular.orderly.blank fresh).mark
  obtain ⟨once, ended⟩ := observed.ended reached
  constructor
  · have continues := (threads_continue_run reached requests).records
    have issued := continues.consecutive
    have length := continues.length
    rw [show m.kernel.threads.records.slots.length = 0 from none] at issued length
    rw [observed.created reached, issued, List.range_eq_range', ThreadTable.mark, length,
      Nat.zero_add]
  · exact once
  · intro t
    rw [ended]
    constructor
    · exact And.right
    · exact fun gone => ⟨fun before => absurd (none ▸ before.registered) (Nat.not_lt_zero _), gone⟩
  · rintro past request future rfl
    exact observed.reports_of_split reached

end Machine

/-- A machine with two processors on which somebody wants to hear of everything before scheduling
begins. -/
def observedProcessors : Machine :=
  twoProcessors.run [⟨0, .subscribe .created true⟩, ⟨0, .subscribe .terminated true⟩,
    ⟨0, .subscribe .switched true⟩]

/-- A run in which scheduling begins at the second attempt. Then threads end where they run, on
another processor, and while they wait, and one of them is terminated twice. -/
def terminations : List Request :=
  [⟨0, .startTimer 1000 ⟨1000000⟩⟩, ⟨0, .init 16 none⟩, ⟨0, .stopTimer⟩, ⟨0, .init 16 none⟩,
    ⟨0, .spawn { entry := 32, name := "first" }⟩, ⟨0, .spawn { entry := 32, name := "second" }⟩,
    ⟨1, .yield⟩, ⟨1, .exit 0⟩, ⟨0, .terminate (.ofIndex 4)⟩, ⟨0, .terminate (.ofIndex 4)⟩,
    ⟨0, .spawn { entry := 32, name := "third" }⟩, ⟨1, .terminate (.ofIndex 5)⟩]

/-- Thread 4 ends where it runs and thread 5 takes its place. Thread 5 ends by the other processor,
and thread 6 while it waits; the idle thread of the second processor is named in their places. -/
theorem Machine.reportsLives_of_terminations :
    observedProcessors.kernel.Reachable ∧
      observedProcessors.kernel.initialized = false ∧
      observedProcessors.Observed terminations ∧
      observedProcessors.told terminations =
        [.created (.ofIndex 0), .created (.ofIndex 1), .created (.ofIndex 2),
          .created (.ofIndex 3), .created (.ofIndex 4), .switched (.ofIndex 3),
          .terminated (.ofIndex 3) (.ofIndex 4), .switched (.ofIndex 4),
          .terminated (.ofIndex 4) (.ofIndex 2), .created (.ofIndex 5),
          .terminated (.ofIndex 5) (.ofIndex 2)] ∧
      observedProcessors.ReportsLives terminations := by
  have reached : observedProcessors.kernel.Reachable := reachable_twoProcessors.run _
  have fresh : observedProcessors.kernel.initialized = false := by decide +kernel
  have observed : observedProcessors.Observed terminations :=
    ⟨⟨by decide +kernel, by decide +kernel⟩, by decide +kernel, by decide +kernel⟩
  exact ⟨reached, fresh, observed, by decide +kernel, reportsLives reached fresh observed⟩

end ThreadScheduler
