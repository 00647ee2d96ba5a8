/-
Module: ThreadScheduler.Proofs.Placement.Locking
Purpose: The lines of the mutexes agree with the places of the threads after a mutex is registered,
  removed, locked, unlocked, handed off or passed on.
Main exports: Kernel.line_replace, Kernel.Placement.of_mutexes, Kernel.Placement.of_handOff,
  Kernel.Placement.vacant_of_blocked, Kernel.Placement.passOn
-/
import ThreadScheduler.Proofs.Mutexes
import ThreadScheduler.Proofs.Placement.Steps

namespace ThreadScheduler.Kernel

variable {k : Kernel} {here : Nat} {id next owner : ThreadId} {m : MutexId} {old mutex : Mutex}

/-- Replacing a mutex changes its own line and no other. -/
theorem line_replace (found : k.mutexes.get? m = some old) (mutex : Mutex) (other : MutexId) :
    Kernel.line { k with mutexes := k.mutexes.replace m mutex } other =
      if other = m then mutex.waiting else k.line other := by
  unfold line
  rw [MutexTable.get?_replace, found]
  split <;> rfl

theorem line_of_found (found : k.mutexes.get? m = some mutex) : k.line m = mutex.waiting := by
  simp [line, found]

/-- Only a registered mutex has a line. -/
theorem exists_mutex_of_mem_line (member : id ∈ k.line m) :
    ∃ mutex, k.mutexes.get? m = some mutex ∧ id ∈ mutex.waiting := by
  unfold line at member
  cases found : k.mutexes.get? m with
  | none => simp [found] at member
  | some mutex => exact ⟨mutex, rfl, by simpa [found] using member⟩

/-- A mutex is replaced by one with its own handle. -/
theorem Records.handles_replace (h : k.Records) (found : k.mutexes.get? m = some old)
    (handle : mutex.handle = old.handle) {other : MutexId} {found' : Mutex}
    (present : (k.mutexes.replace m mutex).get? other = some found') : found'.handle = other := by
  rw [MutexTable.get?_replace, found] at present
  split at present
  · rename_i same
    obtain rfl := Option.some.inj present
    rw [handle, same]
    exact h.mutexHandle found
  · exact h.mutexHandle present

/-- Taking a thread off the line of a mutex changes nothing else. -/
theorem Unlists.of_line (found : k.mutexes.get? m = some old) (handle : mutex.handle = old.handle)
    (taken : old.waiting.Perm (id :: mutex.waiting)) :
    k.Unlists { k with mutexes := k.mutexes.replace m mutex } id (.inside (.line m)) := by
  refine ⟨rfl, rfl, rfl, fun other => ?_, fun c same => ?_, fun c outside => ?_⟩
  · rw [MutexTable.get?_replace, found]
    split
    · rename_i same
      subst same
      simp [found, handle]
    · rfl
  · obtain rfl := Place.inside.inj same
    simp only [members, line_replace found, if_true, line_of_found found]
    exact taken
  · cases c with
    | line other =>
      have distinct : other ≠ m := fun same => outside (same ▸ rfl)
      simp only [members, line_replace found, if_neg distinct]
    | _ => rfl

namespace Placement

theorem mem_waiting_iff (h : k.Placement) (found : k.mutexes.get? m = some mutex) :
    id ∈ mutex.waiting ↔ k.place? id = some (.inside (.line m)) := by
  rw [← line_of_found found]
  exact (h.listed (.line m)).mem_iff id

theorem place_of_passes (h : k.Placement) (found : k.mutexes.get? m = some old)
    (passes : old.Passes next mutex) : k.place? next = some (.inside (.line m)) :=
  (h.mem_waiting_iff found).mp (passes.waiting ▸ List.mem_cons_self)

/-! ### Steps that leave the lines alone -/

/-- Mutexes change while everybody stays in line. -/
theorem of_mutexes {mutexes : MutexTable} (h : k.Placement)
    (handles : ∀ {m mutex}, mutexes.get? m = some mutex → mutex.handle = m)
    (lines : ∀ m, Kernel.line { k with mutexes } m = k.line m) :
    Placement { k with mutexes } := by
  refine h.of_same (fun _ => rfl) (fun _ => rfl) (fun _ => rfl) (fun found => ⟨_, found, rfl⟩)
    (fun c => ?_) handles rfl
  cases c with
  | line m =>
    simp only [members, lines]
    exact List.Perm.refl _
  | _ => exact List.Perm.refl _

theorem of_replace (h : k.Placement) (found : k.mutexes.get? m = some old)
    (handle : mutex.handle = old.handle) (waiting : mutex.waiting = old.waiting) :
    Placement { k with mutexes := k.mutexes.replace m mutex } := by
  apply h.of_mutexes (h.records.handles_replace found handle)
  intro other
  rw [line_replace found]
  split
  · rename_i same
    rw [same, line_of_found found, waiting]
  · rfl

theorem of_created (h : k.Placement) {name : String} {mutexes : MutexTable} {heap : Heap}
    (created : k.mutexes.create k.heap name = (.ok m, mutexes, heap)) :
    Placement { k with mutexes } := by
  obtain ⟨fresh, mutex, handle, free, found⟩ := MutexTable.get?_of_create created
  refine h.of_mutexes (fun {other present} registered => ?_) fun other => ?_
  · rw [found] at registered
    split at registered
    · rename_i same
      rw [← Option.some.inj registered, handle, same]
    · exact h.records.mutexHandle registered
  · unfold line
    rw [found]
    split
    · rename_i same
      simp [same, fresh, Mutex.waiting, free]
    · rfl

theorem of_released (h : k.Placement) {mutexes : MutexTable}
    (released : k.mutexes.release m = .ok mutexes) : Placement { k with mutexes } := by
  obtain ⟨⟨mutex, present, free⟩, found⟩ := MutexTable.get?_of_release released
  refine h.of_mutexes (fun {other left} registered => ?_) fun other => ?_
  · rw [found] at registered
    split at registered
    · cases registered
    · exact h.records.mutexHandle registered
  · unfold line
    rw [found]
    split
    · rename_i same
      simp [same, present, Mutex.waiting, free]
    · rfl

/-! ### Steps that change a line -/

/-- The first in line gets the mutex and becomes ready. -/
theorem of_handOff (h : k.Placement) (found : k.mutexes.get? m = some old)
    (passes : old.Passes next mutex) :
    ({ k with mutexes := k.mutexes.replace m mutex }.makeReady next).1.Placement := by
  refine h.of_makeReady (Unlists.of_line found passes.handle ?_) (h.place_of_passes found passes)
    (.inr ⟨m, rfl⟩)
  rw [passes.waiting]

/-- The running thread goes to the end of the line of a mutex. -/
theorem vacant_of_blocked (h : k.Placement) (idleAssigned : (k.idle? here).isSome)
    (current : k.running? here = some id) (busy : k.isIdle id = false)
    (runs : k.stateOf? id = some .running) (found : k.mutexes.get? m = some old)
    (handle : mutex.handle = old.handle) (waiting : mutex.waiting = old.waiting ++ [id]) :
    Vacant { k with
      mutexes := k.mutexes.replace m mutex
      threads := k.threads.modify id
        ({ · with state := .blocked, waitingOn := some m }) } here := by
  obtain ⟨thread, present, start⟩ :=
    exists_thread_of_place? (stateOf?_eq_some_running_iff.mp runs)
  have amends : k.Amends { k with
      mutexes := k.mutexes.replace m mutex
      threads := k.threads.modify id ({ · with state := .blocked, waitingOn := some m }) } id
      ({ · with state := .blocked, waitingOn := some m }) := amends_of_modify rfl
  have lines (other : MutexId) : Kernel.line { k with
      mutexes := k.mutexes.replace m mutex
      threads := k.threads.modify id ({ · with state := .blocked, waitingOn := some m }) } other =
      if other = m then mutex.waiting else k.line other := line_replace found mutex other
  refine h.vacant_of_departure idleAssigned (Moves.of_amends present amends (fun _ => rfl) start
    (Thread.place_eq_line_iff.mpr ⟨rfl, rfl⟩) nofun nofun (fun c same => ?_) fun c _ away => ?_)
    current busy rfl (h.records.of_amends amends (fun _ => ⟨rfl, rfl⟩) (fun _ _ => by simp)
      (h.records.handles_replace found handle) rfl)
  · obtain rfl := Place.inside.inj same
    simp only [members, lines, if_true, line_of_found found, waiting]
    exact List.perm_append_singleton _ _
  · cases c with
    | line other =>
      have distinct : other ≠ m := fun same => away (same ▸ rfl)
      simp only [members, lines, if_neg distinct]
    | _ => rfl

/-- A mutex of a thread that does not wait for it passes to the first in line. -/
theorem passOn (h : k.Placement) (gone : k.place? owner = some (.inside .ended)) (m : MutexId) :
    (k.passOn owner m).Placement := by
  unfold Kernel.passOn
  cases found : k.mutexes.get? m with
  | none => exact h
  | some old =>
    simp only [Option.bind_some]
    cases taken : old.withdraw owner with
    | none => exact h
    | some removed =>
      obtain ⟨removal, mutex⟩ := removed
      have handle := Mutex.handle_of_withdraw taken
      rcases Mutex.withdraw_cases taken with ⟨_, _, member, _⟩ | ⟨rfl, _, line, _, empty⟩ |
        ⟨nextOwner, rfl, _, passes⟩
      · cases gone.symm.trans ((h.mem_waiting_iff found).mp member)
      · exact h.of_replace found handle (by rw [line, empty])
      · exact h.of_handOff found passes

end Placement

end ThreadScheduler.Kernel
