/-
Module: ThreadScheduler.Proofs.Placement.Termination
Purpose: A thread that ends leaves the list it stands in, whatever list that is, and everybody else
  is in the right place afterwards, those included who got one of its mutexes.
Main exports: Kernel.Strange, Kernel.Unlists.of_detached, Kernel.Ending, Kernel.Ending.passOn_cases,
  Kernel.Placement.ended_eq, Kernel.Placement.ended, Kernel.Placement.vacant_of_ended
-/
import ThreadScheduler.Proofs.Placement.Locking

namespace ThreadScheduler.Kernel

variable {k : Kernel} {here : Nat} {id : ThreadId} {thread : Thread} {m : MutexId}

/-- A thread stands in the line of none of its own mutexes. -/
def Strange (k : Kernel) (id : ThreadId) : Prop :=
  ∀ {m mutex}, k.mutexes.get? m = some mutex → mutex.owner = some id → id ∉ mutex.waiting

/-! ### Leaving a list -/

/-- A thread that waits for a processor can be taken off its level. -/
theorem unlists_of_ready {policy : Policy} (h : k.Placement)
    (stands : k.place? id = some (.inside (.level policy))) :
    ∃ ready, k.ready.remove id = some ready ∧
      ready.threadsAt policy = (k.ready.threadsAt policy).erase id ∧
      k.Unlists { k with ready } id (.inside (.level policy)) := by
  have listed : id ∈ k.ready.threadsAt policy := ((h.listed (.level policy)).mem_iff id).mpr stands
  have ordered := h.records.ordered
  obtain ⟨ready, removed⟩ := Option.isSome_iff_exists.mp
    (ReadyQueue.remove_isSome_iff.mpr ((ReadyQueue.mem_toList_iff ordered).mpr ⟨policy, listed⟩))
  obtain ⟨level, member, erased, others, _⟩ :=
    ReadyQueue.exists_level_of_remove ordered removed
  have same : level = policy := by
    have stands' := ((h.listed (.level level)).mem_iff id).mp member
    injection stands.symm.trans stands' with places
    injection places with containers
    injection containers with policies
    exact policies.symm
  subst same
  refine ⟨ready, removed, erased, rfl, rfl, ReadyQueue.policies_of_remove ordered removed,
    fun _ => rfl, fun c same => ?_, fun c outside => ?_⟩
  · obtain rfl := Place.inside.inj same
    change (k.ready.threadsAt level).Perm (id :: ready.threadsAt level)
    rw [erased]
    exact List.perm_cons_erase member
  · cases c with
    | level other => exact others other fun same => outside (same ▸ rfl)
    | _ => rfl

/-- A thread that sleeps can be taken off the timeline. -/
theorem unlists_of_sleeping (h : k.Placement)
    (stands : k.place? id = some (.inside .timeline)) :
    ∃ sleeping, k.sleeping.remove id = some sleeping ∧
      k.Unlists { k with sleeping } id (.inside .timeline) := by
  have listed : id ∈ k.sleeping.threads := ((h.listed .timeline).mem_iff id).mpr stands
  obtain ⟨sleeping, removed⟩ :=
    Option.isSome_iff_exists.mp (Timeline.remove_isSome_iff.mpr listed)
  refine ⟨sleeping, removed, rfl, rfl, rfl, fun _ => rfl, fun c same => ?_, fun c outside => ?_⟩
  · obtain rfl := Place.inside.inj same
    exact Timeline.threads_perm_of_remove removed
  · cases c with
    | timeline => exact absurd rfl outside
    | _ => rfl

/-- A thread that waits for a mutex can be taken off its line. -/
theorem unlists_of_waiting (h : k.Placement) (strange : k.Strange id)
    (stands : k.place? id = some (.inside (.line m))) :
    ∃ old removal mutex, k.mutexes.get? m = some old ∧ old.withdraw id = some (removal, mutex) ∧
      k.Unlists { k with mutexes := k.mutexes.replace m mutex } id (.inside (.line m)) := by
  have listed : id ∈ k.line m := ((h.listed (.line m)).mem_iff id).mpr stands
  obtain ⟨old, found, waits⟩ := exists_mutex_of_mem_line listed
  obtain ⟨⟨removal, mutex⟩, taken⟩ :=
    Option.isSome_iff_exists.mp (Mutex.withdraw_isSome_iff.mpr (.inr waits))
  refine ⟨old, removal, mutex, found, taken,
    Unlists.of_line found (Mutex.handle_of_withdraw taken) ?_⟩
  have stranger : old.owner ≠ some id := fun owns => strange found owns waits
  rcases Mutex.withdraw_cases taken with ⟨_, _, _, _, _, erased⟩ | ⟨_, owns, _⟩ | ⟨_, _, owns, _⟩
  · rw [erased]
    exact List.perm_cons_erase waits
  · exact absurd owns stranger
  · exact absurd owns stranger

/-- A thread that is detached leaves the list that it stands in. -/
theorem Unlists.of_detached (h : k.Placement) (strange : k.Strange id)
    (found : k.threads.get? id = some thread) (busy : k.isIdle id = false)
    (alive : thread.state ≠ .terminated) :
    k.Unlists (k.detached thread) id (thread.place false) := by
  have handle := h.records.handle found
  have stands := place?_of_found found
  rw [busy] at stands
  unfold detached detach
  rw [handle]
  cases state : thread.state with
  | ready =>
    have place : thread.place false = .inside (.level thread.policy) :=
      Thread.place_eq_level_iff.mpr ⟨state, rfl, rfl⟩
    obtain ⟨ready, removed, _, unlists⟩ := unlists_of_ready h (place ▸ stands)
    simpa [removed, place] using unlists
  | running =>
    have same : ((k.hostOf? id).map fun _ => k).getD k = k := by cases k.hostOf? id <;> rfl
    dsimp only
    rw [same, Thread.place_eq_processor_iff.mpr state]
    exact .of_apart nofun
  | blocked =>
    obtain ⟨m, waits⟩ := Option.isSome_iff_exists.mp ((h.records.waits found).mpr state)
    have place : thread.place false = .inside (.line m) :=
      Thread.place_eq_line_iff.mpr ⟨state, waits⟩
    obtain ⟨old, removal, mutex, registered, taken, unlists⟩ :=
      unlists_of_waiting h strange (place ▸ stands)
    simpa [waits, registered, taken, place] using unlists
  | sleeping =>
    have place : thread.place false = .inside .timeline := Thread.place_eq_timeline_iff.mpr state
    obtain ⟨sleeping, removed, unlists⟩ := unlists_of_sleeping h (place ▸ stands)
    simpa [removed, place] using unlists
  | terminated => exact absurd state alive

/-! ### Passing mutexes on -/

private theorem modify_comm {kind : HandleKind} {α : Type} (t : SlotTable kind α)
    {a b : Handle kind} (distinct : a ≠ b) (f g : α → α) :
    (t.modify a f).modify b g = (t.modify b g).modify a f := by
  have apart : a.index ≠ b.index := fun same => distinct (Handle.index_inj same)
  unfold SlotTable.modify
  simp only [SlotTable.mk.injEq, and_true]
  apply List.ext_getElem?
  intro i
  simp only [List.getElem?_modify]
  by_cases first : a.index = i
  · have second : ¬ b.index = i := fun same => apart (first.trans same.symm)
    simp [first, second]
  · simp [first]

/-- Marking a thread does not hinder another one from becoming ready. -/
theorem makeReady_markTerminated {nextOwner : ThreadId} (distinct : nextOwner ≠ id) :
    ((k.markTerminated id).makeReady nextOwner).1 =
    (k.makeReady nextOwner).1.markTerminated id := by
  have found : (k.markTerminated id).threads.get? nextOwner = k.threads.get? nextOwner := by
    simp only [markTerminated, ThreadTable.get?_modify, if_neg distinct]
  unfold makeReady
  rw [found]
  cases k.threads.get? nextOwner with
  | none => rfl
  | some thread =>
    have threads := modify_comm k.threads.records distinct.symm
      ({ · with state := .terminated, waitingOn := none })
      ({ · with state := .ready, waitingOn := none })
    simp only [enqueueReady, markTerminated, ThreadTable.modify, threads]
    cases k.ready.enqueue nextOwner thread.policy <;> rfl

/-- It makes no difference whether a thread is marked before or after its mutexes are passed on to
others. -/
theorem passOn_markTerminated (apart : ∀ nextOwner mutex,
      (k.mutexes.get? m).bind (·.withdraw id) = some (.owner (some nextOwner), mutex) →
      nextOwner ≠ id) :
    (k.markTerminated id).passOn id m = (k.passOn id m).markTerminated id := by
  unfold passOn
  have mutexes : (k.markTerminated id).mutexes = k.mutexes := rfl
  rw [mutexes]
  split
  · rfl
  · rename_i nextOwner mutex taken
    exact makeReady_markTerminated (k := { k with mutexes := k.mutexes.replace m mutex })
      (apart nextOwner mutex taken)
  · rfl

/-- A thread that stands in no line is not the next owner of its own mutex. -/
theorem nextOwner_ne_of_ended (h : k.Placement) (gone : k.place? id = some (.inside .ended))
    {nextOwner : ThreadId} {mutex : Mutex}
    (taken : (k.mutexes.get? m).bind (·.withdraw id) = some (.owner (some nextOwner), mutex)) :
    nextOwner ≠ id := by
  obtain ⟨old, found, withdrawn⟩ := Option.bind_eq_some_iff.mp taken
  rintro rfl
  rcases Mutex.withdraw_cases withdrawn with ⟨same, _⟩ | ⟨same, _⟩ | ⟨other, same, _, passes⟩
  · cases same
  · cases same
  · obtain rfl := Option.some.inj (Removal.owner.inj same)
    cases gone.symm.trans (h.place_of_passes found passes)

/-- A thread is marked while it may still own mutexes. -/
structure Ending (k : Kernel) (id : ThreadId) : Prop where
  placement : k.Placement
  gone : k.place? id = some (.inside .ended)

namespace Ending

/-- What is passed on to whom: nothing, the mutex to nobody, or the mutex to the first in line, who
stands in no other place. -/
theorem passOn_cases (h : k.Ending id) (m : MutexId) :
    k.passOn id m = k ∧ (∀ mutex, k.mutexes.get? m = some mutex → mutex.owner ≠ some id) ∨
      (∃ old mutex, k.mutexes.get? m = some old ∧ old.owner = some id ∧
        old.withdraw id = some (.owner none, mutex) ∧
        k.passOn id m = { k with mutexes := k.mutexes.replace m mutex }) ∨
      ∃ old mutex nextOwner, k.mutexes.get? m = some old ∧ old.owner = some id ∧
        old.withdraw id = some (.owner (some nextOwner), mutex) ∧ nextOwner ≠ id ∧
        k.place? nextOwner = some (.inside (.line m)) ∧
        k.passOn id m = ({ k with mutexes := k.mutexes.replace m mutex }.makeReady
          nextOwner).1 := by
  unfold passOn
  cases found : k.mutexes.get? m with
  | none => exact .inl ⟨rfl, nofun⟩
  | some old =>
    simp only [Option.bind_some]
    cases taken : old.withdraw id with
    | none =>
      refine .inl ⟨rfl, fun mutex same owns => ?_⟩
      obtain rfl := Option.some.inj same
      have involved := Mutex.withdraw_isSome_iff.mpr (.inl owns)
      rw [taken] at involved
      cases involved
    | some removed =>
      obtain ⟨removal, mutex⟩ := removed
      have waits (other : ThreadId) (member : other ∈ old.waiting) :
          k.place? other = some (.inside (.line m)) :=
        (h.placement.mem_waiting_iff found).mp member
      rcases Mutex.withdraw_cases taken with ⟨_, _, member, _⟩ | ⟨rfl, owns, _⟩ |
        ⟨nextOwner, rfl, owns, passes⟩
      · cases h.gone.symm.trans (waits id member)
      · exact .inr (.inl ⟨old, mutex, rfl, owns, taken, rfl⟩)
      · have stands := waits nextOwner (by rw [passes.waiting]; exact List.mem_cons_self)
        refine .inr (.inr ⟨old, mutex, nextOwner, rfl, owns, taken, ?_, stands, rfl⟩)
        rintro rfl
        cases h.gone.symm.trans stands

theorem passOn (h : k.Ending id) (m : MutexId) : (k.passOn id m).Ending id := by
  refine ⟨h.placement.passOn h.gone m, ?_⟩
  rcases h.passOn_cases m with ⟨same, _⟩ | ⟨_, _, _, _, _, same⟩ |
    ⟨_, _, nextOwner, _, _, _, distinct, _, same⟩
  · rw [same]
    exact h.gone
  · rw [same]
    exact h.gone
  · rw [same, place?_makeReady distinct.symm]
    exact h.gone

theorem passAll (h : k.Ending id) (ids : List MutexId) :
    (ids.foldl (Kernel.passOn id) k).Ending id := by
  induction ids generalizing k with
  | nil => exact h
  | cons m rest ih => exact ih (h.passOn m)

end Ending

/-- Mutexes that are passed on before the owner is marked could as well be passed on afterwards. -/
theorem passAll_markTerminated (ids : List MutexId) (h : (k.markTerminated id).Ending id) :
    (ids.foldl (passOn id) k).markTerminated id = ids.foldl (passOn id) (k.markTerminated id) := by
  induction ids generalizing k with
  | nil => rfl
  | cons m rest ih =>
    have commutes : (k.markTerminated id).passOn id m = (k.passOn id m).markTerminated id :=
      passOn_markTerminated fun nextOwner mutex taken =>
        nextOwner_ne_of_ended h.placement h.gone taken
    rw [List.foldl_cons, List.foldl_cons, commutes]
    exact ih (commutes ▸ h.passOn m)

/-- The kernel after a thread left its container and was marked; it may still own mutexes. -/
def marked (k : Kernel) (id : ThreadId) (thread : Thread) : Kernel :=
  (k.detached thread).markTerminated id

/-- Everybody is in the right place when a thread has left its container and was marked. -/
theorem Placement.ending_marked (h : k.Placement) (strange : k.Strange id)
    (found : k.threads.get? id = some thread) (busy : k.isIdle id = false)
    (alive : thread.state ≠ .terminated) : (k.marked id thread).Ending id := by
  have unlists := Unlists.of_detached h strange found busy alive
  have moves := unlists.moves_markTerminated found (busy ▸ rfl) alive
  refine ⟨⟨(unlists.records h.records).of_markTerminated, ?_, moves.listed h.listed⟩, ?_⟩
  · exact h.occupied.of_moves moves unlists.cpus busy (fun _ _ => rfl) nofun nofun
  · rw [marked, moves.place, if_pos rfl]

/-- A thread that ends is marked first and passes its mutexes on then. -/
theorem Placement.ended_eq (h : k.Placement) (strange : k.Strange id)
    (found : k.threads.get? id = some thread) (busy : k.isIdle id = false)
    (alive : thread.state ≠ .terminated) :
    k.ended thread =
      ((k.detached thread).mutexes.ownedBy id).foldl (Kernel.passOn id) (k.marked id thread) := by
  have ending := h.ending_marked strange found busy alive
  unfold Kernel.ended
  rw [h.records.handle found]
  exact passAll_markTerminated _ ending

/-- Everybody is in the right place after a thread ended, and the thread is among the terminated
ones. -/
theorem Placement.ended (h : k.Placement) (strange : k.Strange id)
    (found : k.threads.get? id = some thread) (busy : k.isIdle id = false)
    (alive : thread.state ≠ .terminated) : (k.ended thread).Ending id := by
  rw [h.ended_eq strange found busy alive]
  exact (h.ending_marked strange found busy alive).passAll _

/-- A processor whose running thread ended can get its next thread. -/
theorem Placement.vacant_of_ended (h : k.Placement) (strange : k.Strange id)
    (idleAssigned : (k.idle? here).isSome) (current : k.running? here = some id)
    (found : k.threads.get? id = some thread) (busy : k.isIdle id = false)
    (alive : thread.state ≠ .terminated) : (k.ended thread).Vacant here := by
  obtain ⟨placement, gone⟩ := h.ended strange found busy alive
  refine placement.vacant ?_ fun other runs => .inr ?_
  · rwa [idle?, cpus_ended]
  · rw [running?, cpus_ended] at runs
    obtain rfl := Option.some.inj (runs.symm.trans current)
    simp [gone]

end ThreadScheduler.Kernel
