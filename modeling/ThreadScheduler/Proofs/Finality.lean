/-
Module: ThreadScheduler.Proofs.Finality
Purpose: A thread that has ended never comes back. Its record stays as it is or is forgotten, its
  handle is not given out again, and no processor takes it up.
Main exports: Kernel.Gone, Kernel.KeepsGone, Moment.Takes.gone, Moment.Takes.running?_of_gone
-/
import ThreadScheduler.Proofs.History
import ThreadScheduler.Proofs.Retention

namespace ThreadScheduler

theorem ThreadTable.mark_modify (t : ThreadTable) (id : ThreadId) (change : Thread → Thread) :
    (t.modify id change).mark = t.mark := List.length_modify ..

/-- The handle of a record was given out. -/
theorem ThreadTable.index_lt_mark {t : ThreadTable} {id : ThreadId} {thread : Thread}
    (found : t.get? id = some thread) : id.index < t.mark := by
  apply Decidable.byContradiction
  intro beyond
  have missing : t.get? id = none := SlotTable.get?_eq_none_of_length_le (Nat.le_of_not_lt beyond)
  cases missing.symm.trans found

namespace Kernel

variable {k k' k'' : Kernel} {here : Nat} {id t : ThreadId} {thread : Thread}
  {change : Thread → Thread}

/-- A thread has ended, or its record was forgotten since. -/
structure Gone (k : Kernel) (t : ThreadId) : Prop where
  registered : t.index < k.threads.mark
  ended : ∀ thread, k.threads.get? t = some thread → thread.state = .terminated

/-- Threads that are gone stay gone. -/
structure KeepsGone (k k' : Kernel) : Prop where
  mark : k.threads.mark ≤ k'.threads.mark
  ended : ∀ t, k.Gone t → ∀ thread, k'.threads.get? t = some thread → thread.state = .terminated

theorem Gone.of_terminated (ended : k.stateOf? t = some .terminated) : k.Gone t := by
  obtain ⟨thread, found, state⟩ := Option.map_eq_some_iff.mp ended
  refine ⟨ThreadTable.index_lt_mark found, fun other same => ?_⟩
  obtain rfl := Option.some.inj (found.symm.trans same)
  exact state

theorem Gone.of_keepsGone (gone : k.Gone t) (keepsGone : k.KeepsGone k') : k'.Gone t :=
  ⟨Nat.lt_of_lt_of_le gone.registered keepsGone.mark, keepsGone.ended t gone⟩

namespace KeepsGone

theorem refl (slots : k'.threads.records.slots = k.threads.records.slots) : k.KeepsGone k' :=
  ⟨Nat.le_of_eq (congrArg List.length slots).symm, fun t gone thread found =>
    gone.ended thread ((ThreadTable.get?_congr slots t).symm.trans found)⟩

theorem trans (first : k.KeepsGone k') (later : k'.KeepsGone k'') : k.KeepsGone k'' :=
  ⟨Nat.le_trans first.mark later.mark, fun t gone => later.ended t (gone.of_keepsGone first)⟩

/-- A change of one record, of a thread that has not ended. -/
theorem of_amends (amends : k.Amends k' id change) (mark : k'.threads.mark = k.threads.mark)
    (alive : k.stateOf? id ≠ some .terminated) : k.KeepsGone k' := by
  refine ⟨Nat.le_of_eq mark.symm, fun t gone thread found => ?_⟩
  rw [amends] at found
  split at found
  · rename_i same
    subst same
    obtain ⟨old, present, _⟩ := Option.map_eq_some_iff.mp found
    exact absurd (by simp [stateOf?, present, gone.ended old present]) alive
  · exact gone.ended thread found

theorem of_makeReady (alive : k.stateOf? id ≠ some .terminated) : k.KeepsGone (k.makeReady id).1 :=
  of_amends (amends_makeReady k id) (Keeps.of_makeReady k id).mark alive

/-- Becoming ready ends nobody. -/
theorem alive_makeReady (alive : k.stateOf? t ≠ some .terminated) :
    (k.makeReady id).1.stateOf? t ≠ some .terminated := by
  intro ended
  obtain ⟨thread, found, state⟩ := Option.map_eq_some_iff.mp ended
  rw [amends_makeReady] at found
  split at found
  · obtain ⟨_, _, rfl⟩ := Option.map_eq_some_iff.mp found
    cases state
  · exact alive (by simp [stateOf?, found, state])

theorem of_makeReadyAll (ids : List ThreadId)
    (alive : ∀ id ∈ ids, k.stateOf? id ≠ some .terminated) : k.KeepsGone (k.makeReadyAll ids) := by
  induction ids generalizing k with
  | nil => exact refl rfl
  | cons id rest ih =>
    refine (of_makeReady (alive id List.mem_cons_self)).trans (ih fun other member => ?_)
    exact alive_makeReady (alive other (List.mem_cons_of_mem _ member))

/-- The threads that wake slept. -/
theorem of_beforeCharge (h : k.Placement) : k.KeepsGone (k.beforeCharge here) := by
  unfold beforeCharge
  split
  · have timed : k.KeepsGone { k with
        timer := k.timer.interrupt.2
        sleeping := (k.sleeping.advance k.timer.interrupt.1).drain.2 } := refl rfl
    refine timed.trans (of_makeReadyAll k.woken fun id member ended => ?_)
    have sleeps : id ∈ k.sleeping.threads := by
      rw [← Timeline.threads_advance k.sleeping k.timer.interrupt.1, ← Timeline.threads_drain]
      exact List.mem_append_left _ member
    obtain ⟨thread, found, place⟩ := exists_thread_of_place? (h.mem_timeline_iff.mp sleeps)
    obtain ⟨other, present, state⟩ := Option.map_eq_some_iff.mp ended
    obtain rfl := Option.some.inj (found.symm.trans present)
    cases (Thread.place_eq_timeline_iff.mp place).symm.trans state
  · exact refl rfl

/-- The end of a thread leaves every other one that is gone alone. -/
theorem of_ended (h : k.Regular) (found : k.threads.get? id = some thread)
    (busy : k.isIdle id = false) (alive : thread.state ≠ .terminated) :
    k.KeepsGone (k.ended thread) := by
  have ends := h.placement.ends_ended (h.strange id) found busy alive
  refine ⟨Nat.le_of_eq (Keeps.of_ended k thread).mark.symm, fun t gone record present => ?_⟩
  by_cases passesOwned : t ∈ k.nextOwners id
  · obtain ⟨m, _, _, _, _, _, stands⟩ := h.placement.ne_of_mem_nextOwners (h.strange id) passesOwned
    obtain ⟨old, known, place⟩ := exists_thread_of_place? stands
    cases (Thread.place_eq_line_iff.mp place).1.symm.trans (gone.ended old known)
  · by_cases same : t = id
    · subst same
      exact absurd (gone.ended thread found) alive
    · exact gone.ended record (ends.other same passesOwned ▸ present)

theorem mark_reapAll (ids : List ThreadId) (k : Kernel) :
    (ids.foldl reapThread k).threads.mark = k.threads.mark := by
  induction ids generalizing k with
  | nil => rfl
  | cons id rest ih =>
    apply (ih _).trans
    rw [threads_reapThread]
    cases removed : k.threads.remove id with
    | none => rfl
    | some removal =>
      obtain ⟨records, taken, same⟩ := ThreadTable.exists_take_of_remove removed
      obtain ⟨_, rfl⟩ := SlotTable.eq_of_take taken
      exact (congrArg ThreadTable.mark same).trans List.length_set

theorem get?_of_reapAll (ids : List ThreadId) {k : Kernel}
    (found : (ids.foldl reapThread k).threads.get? t = some thread) :
    k.threads.get? t = some thread := by
  induction ids generalizing k with
  | nil => exact found
  | cons id rest ih =>
    have kept := ih found
    rw [threads_reapThread] at kept
    cases removed : k.threads.remove id with
    | none => exact (congrArg (ThreadTable.get? · t) (by rw [removed]; rfl)).trans kept
    | some removal =>
      rw [removed] at kept
      replace kept := (ThreadTable.get?_of_remove removed t).symm.trans kept
      split at kept
      · cases kept
      · exact kept

theorem of_reapAll (ids : List ThreadId) (k : Kernel) : k.KeepsGone (ids.foldl reapThread k) :=
  ⟨Nat.le_of_eq (mark_reapAll ids k).symm,
    fun _ gone thread found => gone.ended thread (get?_of_reapAll ids found)⟩

theorem of_reaped (k : Kernel) : k.KeepsGone k.reaped := by
  have listed : k.KeepsGone { k with terminated := k.terminated.filter k.isReferenced } := refl rfl
  exact listed.trans (of_reapAll _ _)

/-- A new thread gets a handle that was never given out. -/
theorem of_admits {spec : ThreadSpec} {admitted : Kernel} (admits : k.Admits spec id admitted) :
    k.KeepsGone admitted := by
  obtain ⟨mark, index⟩ := admits.mark_eq
  obtain ⟨_, _, _, registers, _⟩ := admits.registers
  refine ⟨Nat.le_trans (Nat.le_succ _) (Nat.le_of_eq mark.symm), fun t gone thread found => ?_⟩
  rw [registers.threads] at found
  split at found
  · rename_i same
    exact absurd (same ▸ gone.registered) (Nat.not_lt.mpr (Nat.le_of_eq index.symm))
  · exact gone.ended thread found

end KeepsGone

/-- A thread that has ended does not come back when the one that runs on a processor stands
down. -/
theorem Gone.terminated_of_vacate {thread : Thread} (gone : k.Gone t)
    (found : (k.vacate here).threads.get? t = some thread) : thread.state = .terminated := by
  rw [get?_vacate] at found
  split at found
  · rename_i both
    obtain ⟨record, present, runs⟩ := Option.map_eq_some_iff.mp both.2
    cases runs.symm.trans (gone.ended record present)
  · exact gone.ended thread found

/-- A thread that gets a processor has not ended. -/
theorem Vacant.alive_of_installs {next : ThreadId} (h : k.Vacant here)
    (installs : k.Installs k' here next) : ¬ k.Gone next := by
  intro gone
  have stands : (∃ policy, (k.vacate here).place? next = some (.inside (.level policy))) ∨
      (k.vacate here).place? next = some .aside ∨
        (k.vacate here).place? next = some .processor := by
    rcases installs.ready_cases with served | ⟨_, idle, _⟩
    · refine .inl (h.placement.mem_ready_iff.mp ?_)
      change next ∈ k.ready.toList
      rw [ReadyQueue.toList_of_dequeue served]
      exact List.mem_cons_self
    · exact .inr (h.placement.occupied.idle ((idle?_vacate k here here).trans idle))
  rcases stands with ⟨policy, stands⟩ | stands | stands <;>
    obtain ⟨thread, found, place⟩ := exists_thread_of_place? stands
  · cases (Thread.place_eq_level_iff.mp place).1.symm.trans (gone.terminated_of_vacate found)
  · rw [Thread.place_eq_ended_iff.mpr (gone.terminated_of_vacate found)] at place
    cases place
  · cases (Thread.place_eq_processor_iff.mp place).symm.trans (gone.terminated_of_vacate found)

/-- Giving a processor its next thread brings nobody back. -/
theorem Vacant.keepsGone_redispatch (h : k.Vacant here) : k.KeepsGone (k.redispatch here) := by
  refine ⟨Nat.le_of_eq (Keeps.of_redispatch k here).mark.symm, fun t gone thread found => ?_⟩
  obtain ⟨next, installs⟩ := exists_installs h.idleAssigned
  rw [installs.amends] at found
  split at found
  · rename_i same
    exact absurd (same ▸ gone) (h.alive_of_installs installs)
  · exact gone.terminated_of_vacate found

end Kernel

namespace Moment.Takes

open Kernel

variable {x : Moment} {course : Course} {t : ThreadId}

/-- Whatever threads move, those that are gone do not. -/
theorem keepsGone_moved (h : x.Takes course) (begun : x.before.initialized = true) :
    x.before.KeepsGone course.moved := by
  obtain ⟨k, here, operation, result, after⟩ := x
  obtain ⟨regular, transition, _⟩ := h
  dsimp only at begun transition regular
  have alive {id : ThreadId} {state : ThreadState} (is : k.stateOf? id = some state)
      (other : state ≠ .terminated) : k.stateOf? id ≠ some .terminated := by
    rw [is]
    exact fun same => other (Option.some.inj same)
  cases transition with
  | booted fresh | bootstrapRefused _ fresh | idleRefused _ fresh =>
    exact absurd (begun.symm.trans fresh) nofun
  | spawned _ admits =>
    exact (KeepsGone.of_admits admits).trans
      (.refl (congrArg (·.records.slots) (threads_enqueueReady _ _ _)))
  | yielded _ caller =>
    exact .of_makeReady (alive (caller_eq_ok_iff.mp caller).2.2 nofun)
  | replaced => exact .of_beforeCharge regular.placement
  | preempted _ _ verdict =>
    exact (KeepsGone.of_beforeCharge regular.placement).trans
      (.of_makeReady (tickVerdict_eq_preempt verdict).2.2.1)
  | kept => exact (KeepsGone.of_beforeCharge regular.placement).trans (.refl rfl)
  | fellAsleep _ caller =>
    exact .of_amends (amends_of_modify rfl) (ThreadTable.mark_modify ..)
      (alive (caller_eq_ok_iff.mp caller).2.2 nofun)
  | blocked _ caller =>
    exact .of_amends (amends_of_modify rfl) (ThreadTable.mark_modify ..)
      (alive (caller_eq_ok_iff.mp caller).2.2 nofun)
  | threadPointerSet _ caller =>
    exact .of_amends (amends_of_modify rfl) (ThreadTable.mark_modify ..)
      (alive (caller_eq_ok_iff.mp caller).2.2 nofun)
  -- The next owner waited in line, so it had not ended.
  | @handedOff m t next mutex _ _ found passes =>
    obtain ⟨thread, known, place⟩ := exists_thread_of_place?
      (regular.placement.place_of_passes found (Mutex.unlock_passes passes).2.2)
    have blocked : k.stateOf? next = some .blocked :=
      Option.map_eq_some_iff.mpr ⟨thread, known, (Thread.place_eq_line_iff.mp place).1⟩
    have freed : k.KeepsGone { k with mutexes := k.mutexes.replace m (mutex.unlock t).2 } :=
      .refl rfl
    exact freed.trans (.of_makeReady (alive blocked nofun))
  | endedElsewhere _ _ found alive busy | endedHere _ _ found alive busy =>
    exact .of_ended regular found busy alive
  | reaped => exact .of_reaped k
  | _ => exact .refl rfl

/-- A thread that is gone when all threads have moved is gone afterwards. -/
theorem gone_after (h : x.Takes course) (moved : course.moved.Gone t) : x.after.Gone t := by
  rw [h.after]
  cases course with
  | stay k => exact moved
  | dispatch k => exact moved.of_keepsGone (h.transition.regular h.regular).1.keepsGone_redispatch

/-- A thread that is gone stays gone. -/
theorem gone (h : x.Takes course) (begun : x.before.initialized = true) (gone : x.before.Gone t) :
    x.after.Gone t := by
  exact h.gone_after (gone.of_keepsGone (h.keepsGone_moved begun))

/-- A thread that ends is gone before the processor goes on. -/
theorem gone_of_ends (h : x.Takes course) (ends : x.Ends t) : course.moved.Gone t :=
  .of_terminated (h.stateOf?_moved ends.2)

/-- No processor takes up a thread that is gone. -/
theorem running?_of_gone (h : x.Takes course) (begun : x.before.initialized = true)
    (moved : course.moved.Gone t) {cpu : Nat} (runs : x.after.running? cpu = some t) :
    x.before.running? cpu = some t := by
  rw [← h.running?_moved begun]
  cases course with
  | stay k => rwa [h.after] at runs
  | dispatch k =>
    obtain ⟨next, installs⟩ := h.exists_installs
    rw [installs.running?] at runs
    split at runs
    · obtain rfl := Option.some.inj runs
      exact absurd moved ((h.transition.regular h.regular).1.alive_of_installs installs)
    · exact runs

end Moment.Takes

end ThreadScheduler
