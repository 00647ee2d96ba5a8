/-
Module: ThreadScheduler.Proofs.Owners
Purpose: Every mutex that is locked belongs to a thread that can still unlock it: one that has not
  ended, is no idle thread and does not wait for the very mutex.
Main exports: Kernel.Holds, Kernel.Owned, Kernel.Spares, Kernel.Owned.of_spares,
  Kernel.Owned.strange, Kernel.Owned.of_handOff, Kernel.Owned.of_ends
-/
import ThreadScheduler.Proofs.OwnedMutexes
import ThreadScheduler.Proofs.Placement.Registration

namespace ThreadScheduler.Kernel

variable {k k' k'' : Kernel} {here : Nat} {id next t : ThreadId} {m : MutexId} {old mutex : Mutex}

/-- A thread is in a position to own a mutex. -/
structure Holds (k : Kernel) (t : ThreadId) (m : MutexId) : Prop where
  busy : k.isIdle t = false
  alive : ∃ thread, k.threads.get? t = some thread ∧ thread.state ≠ .terminated ∧
    thread.waitingOn ≠ some m

/-- Every owner is in a position to own its mutex. -/
def Owned (k : Kernel) : Prop :=
  ∀ m mutex t, k.mutexes.get? m = some mutex → mutex.owner = some t → k.Holds t m

/-- Threads that have not ended do not end, and wait for no further mutex. -/
def Spares (k k' : Kernel) : Prop :=
  ∀ t thread, k.threads.get? t = some thread → thread.state ≠ .terminated →
    ∃ thread', k'.threads.get? t = some thread' ∧ thread'.state ≠ .terminated ∧
      (thread'.waitingOn = thread.waitingOn ∨ thread'.waitingOn = none)

namespace Spares

theorem refl (slots : k'.threads.records.slots = k.threads.records.slots) : k.Spares k' :=
  fun t thread found alive =>
    ⟨thread, (ThreadTable.get?_congr slots t).trans found, alive, .inl rfl⟩

theorem trans (first : k.Spares k') (later : k'.Spares k'') : k.Spares k'' := by
  intro t thread found alive
  obtain ⟨thread', found', alive', waits⟩ := first t thread found alive
  obtain ⟨thread'', found'', alive'', waits'⟩ := later t thread' found' alive'
  refine ⟨thread'', found'', alive'', ?_⟩
  rcases waits' with same | none
  · exact same ▸ waits
  · exact .inr none

/-- A change of one record that neither ends the thread nor lets it wait. -/
theorem of_amends {change : Thread → Thread} (amends : k.Amends k' id change)
    (mild : ∀ thread, thread.state ≠ .terminated → (change thread).state ≠ .terminated ∧
      ((change thread).waitingOn = thread.waitingOn ∨ (change thread).waitingOn = none)) :
    k.Spares k' := by
  intro t thread found alive
  by_cases same : t = id
  · subst same
    exact ⟨change thread, amends.found found, mild thread alive⟩
  · exact ⟨thread, (amends.other same).trans found, alive, .inl rfl⟩

theorem of_makeReady (k : Kernel) (id : ThreadId) : k.Spares (k.makeReady id).1 :=
  of_amends (amends_makeReady k id) fun _ _ => ⟨nofun, .inr rfl⟩

theorem of_makeReadyAll (ids : List ThreadId) (k : Kernel) : k.Spares (k.makeReadyAll ids) := by
  induction ids generalizing k with
  | nil => exact refl rfl
  | cons id rest ih => exact (of_makeReady k id).trans (ih _)

theorem of_vacate (k : Kernel) (here : Nat) : k.Spares (k.vacate here) := by
  intro t thread found alive
  rw [get?_vacate, found]
  split
  · exact ⟨_, rfl, nofun, .inl rfl⟩
  · exact ⟨thread, rfl, alive, .inl rfl⟩

theorem of_installs (installs : k.Installs k' here next) : k.Spares k' :=
  (of_vacate k here).trans (of_amends installs.amends fun _ _ => ⟨nofun, .inl rfl⟩)

/-- A registration spares the threads that were there. -/
theorem of_registers {thread : Thread} (registers : k.Registers k' id thread) : k.Spares k' := by
  intro t record found alive
  refine ⟨record, ?_, alive, .inl rfl⟩
  rw [registers.threads, if_neg]
  · exact found
  · rintro rfl
    cases registers.fresh.symm.trans found

end Spares

/-- A thread that is spared keeps its mutexes. -/
theorem Holds.of_spares (h : k.Holds t m) (spares : k.Spares k')
    (idle : ∀ cpu, k'.idle? cpu = k.idle? cpu) : k'.Holds t m := by
  obtain ⟨thread, found, alive, waits⟩ := h.alive
  obtain ⟨thread', found', alive', same | none⟩ := spares t thread found alive
  · exact ⟨isIdle_congr idle ▸ h.busy, thread', found', alive', same ▸ waits⟩
  · exact ⟨isIdle_congr idle ▸ h.busy, thread', found', alive', by rw [none]; nofun⟩

/-- A caller can own any mutex. -/
theorem holds_of_running (records : k.Records) (busy : k.isIdle t = false)
    (runs : k.stateOf? t = some .running) : k.Holds t m := by
  obtain ⟨thread, found, state⟩ := Option.map_eq_some_iff.mp runs
  refine ⟨busy, thread, found, by rw [state]; nofun, fun waits => ?_⟩
  have blocked := (records.waits found).mp (by simp [waits])
  rw [state] at blocked
  cases blocked

namespace Owned

/-- Owners stay owners while threads are spared; new owners are in a position to own. -/
theorem of_spares (h : k.Owned) (spares : k.Spares k')
    (idle : ∀ cpu, k'.idle? cpu = k.idle? cpu)
    (owners : ∀ m mutex' t, k'.mutexes.get? m = some mutex' → mutex'.owner = some t →
      (∃ mutex, k.mutexes.get? m = some mutex ∧ mutex.owner = some t) ∨ k'.Holds t m) :
    k'.Owned := by
  intro m mutex' t found owns
  rcases owners m mutex' t found owns with ⟨mutex, present, owned⟩ | holds
  · exact (h m mutex t present owned).of_spares spares idle
  · exact holds

theorem of_same (h : k.Owned) (spares : k.Spares k') (idle : ∀ cpu, k'.idle? cpu = k.idle? cpu)
    (mutexes : k'.mutexes = k.mutexes) : k'.Owned :=
  h.of_spares spares idle fun _ mutex _ found owns => .inl ⟨mutex, mutexes ▸ found, owns⟩

/-- An owner stands in no line of its own mutex. -/
theorem strange (h : k.Owned) (placement : k.Placement) (id : ThreadId) : k.Strange id := by
  intro m mutex found owns member
  obtain ⟨thread, present, _, other⟩ := (h m mutex id found owns).alive
  have stands : k.place? id = some (.inside (.line m)) :=
    (placement.mem_waiting_iff found).mp member
  rw [place?_of_found present] at stands
  exact other (Thread.place_eq_line_iff.mp (Option.some.inj stands)).2

/-- A mutex is replaced by one with the same owner, or with an owner in a position to own it. -/
theorem of_replace (h : k.Owned) (found : k.mutexes.get? m = some old)
    (owner : ∀ t, mutex.owner = some t → old.owner = some t ∨ k.Holds t m) :
    Owned { k with mutexes := k.mutexes.replace m mutex } := by
  refine h.of_spares (.refl rfl) (fun _ => rfl) fun other mutex' t present owns => ?_
  simp only [MutexTable.get?_replace, found] at present
  split at present
  · rename_i same
    subst same
    obtain rfl := Option.some.inj present
    rcases owner t owns with same | holds
    · exact .inl ⟨old, found, same⟩
    · exact .inr ⟨holds.busy, holds.alive⟩
  · exact .inl ⟨mutex', present, owns⟩

/-- The first in line can own the mutex as soon as it is made ready. -/
theorem of_handOff (h : k.Owned) (placement : k.Placement) (found : k.mutexes.get? m = some old)
    (passes : old.Passes next mutex) :
    ({ k with mutexes := k.mutexes.replace m mutex }.makeReady next).1.Owned := by
  have stands := placement.place_of_passes found passes
  obtain ⟨thread, present, _⟩ := exists_thread_of_place? stands
  have amends := amends_makeReady { k with mutexes := k.mutexes.replace m mutex } next
  obtain ⟨threads, ready, after⟩ :=
    makeReady_frame { k with mutexes := k.mutexes.replace m mutex } next
  have idle (cpu : Nat) :
      ({ k with mutexes := k.mutexes.replace m mutex }.makeReady next).1.idle? cpu =
      k.idle? cpu := by
    rw [after]
    rfl
  have spares : k.Spares ({ k with mutexes := k.mutexes.replace m mutex }.makeReady next).1 :=
    Spares.of_makeReady { k with mutexes := k.mutexes.replace m mutex } next
  apply h.of_spares spares idle
  intro other mutex' t registered owns
  rw [after] at registered
  simp only [MutexTable.get?_replace, found] at registered
  split at registered
  · rename_i same
    subst same
    obtain rfl := Option.some.inj registered
    obtain rfl := Option.some.inj (passes.owner.symm.trans owns)
    refine .inr ⟨?_, _, amends.found present, nofun, nofun⟩
    rw [isIdle_congr idle]
    exact placement.busy_of_place stands
  · exact .inl ⟨mutex', registered, owns⟩

/-- A caller that goes to the line of a mutex may own others. -/
theorem of_blocked (h : k.Owned) (found : k.mutexes.get? m = some old)
    (owner : mutex.owner = old.owner) (foreign : old.owner ≠ some id) :
    Owned { k with
      mutexes := k.mutexes.replace m mutex
      threads := k.threads.modify id ({ · with state := .blocked, waitingOn := some m }) } := by
  intro other mutex' t present owns
  have before : ∃ mutex, k.mutexes.get? other = some mutex ∧ mutex.owner = some t := by
    simp only [MutexTable.get?_replace, found] at present
    split at present
    · rename_i same
      obtain rfl := Option.some.inj present
      exact ⟨old, same ▸ found, owner ▸ owns⟩
    · exact ⟨mutex', present, owns⟩
  obtain ⟨earlier, registered, owned⟩ := before
  obtain ⟨busy, thread, known, alive, waits⟩ := h other earlier t registered owned
  have amends : k.Amends { k with
      mutexes := k.mutexes.replace m mutex
      threads := k.threads.modify id ({ · with state := .blocked, waitingOn := some m }) } id
      ({ · with state := .blocked, waitingOn := some m }) := amends_of_modify rfl
  by_cases same : t = id
  · subst same
    refine ⟨busy, _, amends.found known, nofun, fun own => ?_⟩
    obtain rfl := Option.some.inj own
    obtain rfl := Option.some.inj (found.symm.trans registered)
    exact foreign owned
  · exact ⟨busy, thread, (amends.other same).trans known, alive, waits⟩

/-- A thread that ends leaves mutexes to threads that can own them. -/
theorem of_ends (h : k.Owned) (placement : k.Placement) (ends : k.Ends k' id)
    (cpus : k'.cpus = k.cpus) : k'.Owned := by
  have strange : k.Strange id := h.strange placement id
  have idle (t : ThreadId) : k'.isIdle t = k.isIdle t := by rw [isIdle, cpus, isIdle]
  intro m mutex' t found owns
  rw [ends.mutexes] at found
  obtain ⟨mutex, registered, rfl⟩ := Option.map_eq_some_iff.mp found
  rcases mutex.without_cases id with ⟨foreign, owner, _⟩ | ⟨_, _, owner, _⟩
    | ⟨nextOwner, owned, passes⟩
  · have owned : mutex.owner = some t := owner ▸ owns
    obtain ⟨busy, thread, known, alive, waits⟩ := h m mutex t registered owned
    have distinct : t ≠ id := by
      rintro rfl
      exact foreign owned
    by_cases passesOwned : t ∈ k.nextOwners id
    · have ready := ends.nextOwner passesOwned
      rw [known] at ready
      exact ⟨idle t ▸ busy, _, ready, by simp, by simp⟩
    · exact ⟨idle t ▸ busy, thread, (ends.other distinct passesOwned).trans known, alive, waits⟩
  · rw [owner] at owns
    cases owns
  · obtain rfl := Option.some.inj (passes.owner.symm.trans owns)
    have member : nextOwner ∈ k.nextOwners id := placement.mem_nextOwners registered owned passes
    obtain ⟨_, _, _, _, _, _, stands⟩ := placement.ne_of_mem_nextOwners strange member
    obtain ⟨thread, known, _⟩ := exists_thread_of_place? stands
    have ready := ends.nextOwner member
    rw [known] at ready
    exact ⟨idle nextOwner ▸ placement.busy_of_place stands, _, ready, by simp, by simp⟩

end Owned

end ThreadScheduler.Kernel
