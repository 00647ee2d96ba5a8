/-
Module: ThreadScheduler.Proofs.OwnedMutexes
Purpose: What the end of a thread does to all mutexes, records and levels at once. Every mutex goes
  on without the thread, the first in line of each mutex it owned becomes ready, and nothing else
  changes.
Main exports: Kernel.nextOwners, Kernel.Ends, Kernel.PassesOwned, Kernel.Ending.passesOwned_passAll,
  Kernel.Placement.ends_ended
-/
import Mathlib.Data.List.Basic
import ThreadScheduler.Proofs.Placement.Termination

namespace ThreadScheduler.Kernel

variable {k k' : Kernel} {id : ThreadId} {thread : Thread} {m : MutexId} {mutex : Mutex}

/-- The first in line of several mutexes. -/
def heads (k : Kernel) (ids : List MutexId) : List ThreadId :=
  ids.filterMap fun m => (k.line m).head?

/-- The threads that get the mutexes of a thread if it ends, in the order of the mutexes. -/
def nextOwners (k : Kernel) (id : ThreadId) : List ThreadId := k.heads (k.mutexes.ownedBy id)

/-- All that changes when a thread ends. -/
structure Ends (k k' : Kernel) (id : ThreadId) : Prop where
  mutexes : ∀ m, k'.mutexes.get? m = (k.mutexes.get? m).map (·.without id)
  victim : k'.threads.get? id =
    (k.threads.get? id).map ({ · with state := .terminated, waitingOn := none })
  nextOwner : ∀ {t}, t ∈ k.nextOwners id →
    k'.threads.get? t = (k.threads.get? t).map ({ · with state := .ready, waitingOn := none })
  other : ∀ {t}, t ≠ id → t ∉ k.nextOwners id → k'.threads.get? t = k.threads.get? t
  /-- The next owners stand at the end of their levels. -/
  levels : ∀ policy, k'.ready.threadsAt policy =
    (k.ready.threadsAt policy).erase id ++
      (k.nextOwners id).filter (k.policyOf? · = some policy)

theorem Placement.mem_ownedBy_iff (h : k.Placement) :
    m ∈ k.mutexes.ownedBy id ↔
      ∃ mutex, k.mutexes.get? m = some mutex ∧ mutex.owner = some id :=
  MutexTable.mem_ownedBy_iff fun _ _ => h.records.mutexHandle

theorem Placement.nodup_ownedBy (h : k.Placement) (id : ThreadId) :
    (k.mutexes.ownedBy id).Nodup :=
  MutexTable.nodup_handles _ fun _ _ => h.records.mutexHandle

/-- The first in line of a mutex is a next owner of its owner. -/
theorem Placement.mem_nextOwners (h : k.Placement) {t : ThreadId} {mutex' : Mutex}
    (found : k.mutexes.get? m = some mutex) (owns : mutex.owner = some id)
    (passes : mutex.Passes t mutex') : t ∈ k.nextOwners id := by
  refine List.mem_filterMap.mpr ⟨m, h.mem_ownedBy_iff.mpr ⟨mutex, found, owns⟩, ?_⟩
  rw [line_of_found found, passes.waiting]
  rfl

/-! ### Leaving a container -/

/-- A thread is in no line but the one its place names. -/
theorem Placement.not_mem_waiting (h : k.Placement)
    (elsewhere : k.place? id ≠ some (.inside (.line m))) (found : k.mutexes.get? m = some mutex) :
    id ∉ mutex.waiting := fun member => elsewhere ((h.mem_waiting_iff found).mp member)

/-- Leaving a line changes nothing for a thread that stands elsewhere. -/
theorem Placement.without_of_elsewhere (h : k.Placement)
    (elsewhere : k.place? id ≠ some (.inside (.line m))) :
    k.mutexes.get? m = (k.mutexes.get? m).map fun mutex =>
      if mutex.owner = some id then mutex else mutex.without id := by
  cases registered : k.mutexes.get? m with
  | none => rfl
  | some mutex =>
    simp only [Option.map_some, Option.some.injEq]
    split
    · rfl
    · rename_i foreign
      rw [Mutex.without_of_stranger foreign (h.not_mem_waiting elsewhere registered)]

/-- A thread that waits for no mutex is detached from none. -/
theorem mutexes_detached_of_awake (awake : thread.state ≠ .blocked) :
    (k.detached thread).mutexes = k.mutexes := by
  unfold detached detach
  cases state : thread.state with
  | ready => cases k.ready.remove thread.id <;> rfl
  | running => cases k.hostOf? thread.id <;> rfl
  | blocked => exact absurd state awake
  | sleeping => cases k.sleeping.remove thread.id <;> rfl
  | terminated => rfl

/-- A thread that is detached leaves its line, and keeps the mutexes it owns. -/
theorem Placement.mutexes_detached (h : k.Placement) (strange : k.Strange id)
    (found : k.threads.get? id = some thread) (busy : k.isIdle id = false) :
    (∀ m, (k.detached thread).mutexes.get? m = (k.mutexes.get? m).map fun mutex =>
      if mutex.owner = some id then mutex else mutex.without id) ∧
      (k.detached thread).mutexes.ownedBy id = k.mutexes.ownedBy id := by
  have stands := place?_of_found found
  rw [busy] at stands
  by_cases blocked : thread.state = .blocked
  · obtain ⟨m₀, waits⟩ := Option.isSome_iff_exists.mp ((h.records.waits found).mpr blocked)
    have place : thread.place false = .inside (.line m₀) :=
      Thread.place_eq_line_iff.mpr ⟨blocked, waits⟩
    rw [place] at stands
    obtain ⟨old, removal, mutex, registered, taken, _⟩ := unlists_of_waiting h strange stands
    have listed : id ∈ old.waiting := (h.mem_waiting_iff registered).mpr stands
    -- Whoever waits for a mutex does not own it, so nobody gets it next.
    have foreign : old.owner ≠ some id := fun owns => strange registered owns listed
    have owner : mutex.owner = old.owner := by
      rcases Mutex.withdraw_cases taken with ⟨_, _, _, owner, _⟩ | ⟨_, owns, _⟩ | ⟨_, _, owns, _⟩
      · exact owner
      · exact absurd owns foreign
      · exact absurd owns foreign
    have detached : (k.detached thread).mutexes = k.mutexes.replace m₀ mutex := by
      simp [Kernel.detached, detach, h.records.handle found, blocked, waits, registered, taken]
    rw [detached]
    refine ⟨fun m => ?_,
      MutexTable.ownedBy_replace id registered (Mutex.handle_of_withdraw taken) owner⟩
    rw [MutexTable.get?_replace]
    split
    · rename_i same
      rw [same, registered]
      simp [foreign, Mutex.without_of_withdraw taken]
    · rename_i distinct
      apply h.without_of_elsewhere
      rw [stands]
      simpa using fun same => distinct (Eq.symm same)
  · rw [mutexes_detached_of_awake blocked]
    refine ⟨fun m => h.without_of_elsewhere ?_, rfl⟩
    intro line
    exact blocked (Thread.place_eq_line_iff.mp (Option.some.inj (stands.symm.trans line))).1

/-- A thread that is detached leaves its level. -/
theorem Placement.levels_detached (h : k.Placement) (strange : k.Strange id)
    (found : k.threads.get? id = some thread) (busy : k.isIdle id = false)
    (alive : thread.state ≠ .terminated) (policy : Policy) :
    (k.detached thread).ready.threadsAt policy = (k.ready.threadsAt policy).erase id := by
  have unlists := Unlists.of_detached h strange found busy alive
  have stands := place?_of_found found
  rw [busy] at stands
  by_cases here : thread.place false = .inside (.level policy)
  · obtain ⟨state, _, _⟩ := Thread.place_eq_level_iff.mp here
    obtain ⟨ready, removed, erased, _⟩ := unlists_of_ready h (here ▸ stands)
    unfold detached detach
    rw [h.records.handle found, state]
    simpa only [removed, Option.map_some, Option.getD_some] using erased
  · have absent : id ∉ k.ready.threadsAt policy := by
      intro member
      have level := ((h.listed (.level policy)).mem_iff id).mp member
      exact here (Option.some.inj (stands.symm.trans level))
    rw [List.erase_of_not_mem absent]
    exact unlists.stays _ here

/-! ### Passing mutexes on -/

/-- All that changes when a thread that was marked passes some of its mutexes on. -/
structure PassesOwned (k k' : Kernel) (id : ThreadId) (ids : List MutexId) : Prop where
  mutexes : ∀ m, k'.mutexes.get? m =
    if m ∈ ids then (k.mutexes.get? m).map (·.without id) else k.mutexes.get? m
  threads : ∀ t, k'.threads.get? t =
    if t ∈ k.heads ids then
      (k.threads.get? t).map ({ · with state := .ready, waitingOn := none })
    else k.threads.get? t
  levels : ∀ policy, k'.ready.threadsAt policy =
    k.ready.threadsAt policy ++ (k.heads ids).filter (k.policyOf? · = some policy)

private theorem policyOf?_of_threads {t : ThreadId} {here : Prop} [Decidable here]
    (threads : k'.threads.get? t =
      if here then (k.threads.get? t).map ({ · with state := .ready, waitingOn := none })
      else k.threads.get? t) : k'.policyOf? t = k.policyOf? t := by
  unfold policyOf?
  rw [threads]
  split
  · rw [Option.map_map]
    rfl
  · rfl

/-- A mutex that is passed on to nobody. -/
private theorem passesOwned_of_free {old mutex : Mutex} (found : k.mutexes.get? m = some old)
    (line : old.waiting = []) (taken : old.without id = mutex) :
    k.PassesOwned { k with mutexes := k.mutexes.replace m mutex } id [m] := by
  have nobody : k.heads [m] = [] := by simp [heads, line_of_found found, line]
  refine ⟨fun other => ?_, fun t => ?_, fun policy => ?_⟩
  · rw [MutexTable.get?_replace, found]
    by_cases same : other = m
    · subst same
      simp [found, taken]
    · simp [same]
  · simp [nobody]
  · simp [nobody]

/-- A mutex that is passed on to the first in line. -/
private theorem passesOwned_of_nextOwner {old mutex : Mutex} {nextOwner : ThreadId}
    (records : k.Records)
    (found : k.mutexes.get? m = some old) (taken : old.without id = mutex)
    (passes : old.Passes nextOwner mutex) (known : (k.threads.get? nextOwner).isSome) :
    k.PassesOwned ({ k with mutexes := k.mutexes.replace m mutex }.makeReady
      nextOwner).1 id [m] := by
  have first : k.heads [m] = [nextOwner] := by simp [heads, line_of_found found, passes.waiting]
  obtain ⟨thread, present⟩ := Option.isSome_iff_exists.mp known
  have amends := amends_makeReady { k with mutexes := k.mutexes.replace m mutex } nextOwner
  obtain ⟨ready, queued, after⟩ := exists_ready_of_makeReady
    (k := { k with mutexes := k.mutexes.replace m mutex }) present (records.served present)
  refine ⟨fun other => ?_, fun t => ?_, fun policy => ?_⟩
  · rw [after]
    change (k.mutexes.replace m mutex).get? other = _
    rw [MutexTable.get?_replace, found]
    by_cases same : other = m
    · subst same
      simp [found, taken]
    · simp [same]
  · rw [first, amends t]
    by_cases same : t = nextOwner
    · subst same
      simp
    · simp [same]
  · rw [after, first]
    have level := ReadyQueue.threadsAt_of_enqueue queued policy
    rw [level]
    have served : k.policyOf? nextOwner = some thread.policy := by simp [policyOf?, present]
    by_cases same : policy = thread.policy
    · simp [same, served]
    · have other : ¬ thread.policy = policy := fun eq => same eq.symm
      simp [same, other, served]

theorem Ending.passesOwned_passOn (h : k.Ending id) (found : k.mutexes.get? m = some mutex)
    (owns : mutex.owner = some id) : k.PassesOwned (k.passOn id m) id [m] := by
  rcases h.passOn_cases m with ⟨_, foreign⟩ | ⟨old, rest, present, _, taken, same⟩ |
    ⟨old, rest, nextOwner, present, _, taken, _, stands, same⟩
  · exact absurd owns (foreign mutex found)
  · rw [same]
    rcases Mutex.withdraw_cases taken with ⟨other, _⟩ | ⟨_, _, line, _⟩ | ⟨_, other, _⟩
    · cases other
    · exact passesOwned_of_free present line (Mutex.without_of_withdraw taken)
    · cases other
  · rw [same]
    obtain ⟨thread, known, _⟩ := exists_thread_of_place? stands
    rcases Mutex.withdraw_cases taken with ⟨other, _⟩ | ⟨other, _⟩ | ⟨_, other, _, passes⟩
    · cases other
    · cases other
    · obtain rfl := Option.some.inj (Removal.owner.inj other)
      exact passesOwned_of_nextOwner h.placement.records present
        (Mutex.without_of_withdraw taken) passes
        (by simp [known])

/-- What is passed on first does not interfere with what is passed on later. -/
theorem PassesOwned.trans {k₁ k₂ : Kernel} {rest : List MutexId} (first : k.PassesOwned k₁ id [m])
    (later : k₁.PassesOwned k₂ id rest) (fresh : m ∉ rest) : k.PassesOwned k₂ id (m :: rest) := by
  have untouched (other : MutexId) (member : other ∈ rest) : k₁.line other = k.line other := by
    have distinct : other ≠ m := fun same => fresh (same ▸ member)
    unfold line
    rw [first.mutexes, if_neg (by simpa using distinct)]
  have heads_rest : k₁.heads rest = k.heads rest :=
    List.filterMap_congr fun other member => by rw [untouched other member]
  have heads_cons : k.heads (m :: rest) = k.heads [m] ++ k.heads rest := by
    unfold heads
    rw [← List.filterMap_append, List.singleton_append]
  have policies (t : ThreadId) : k₁.policyOf? t = k.policyOf? t :=
    policyOf?_of_threads (first.threads t)
  refine ⟨fun other => ?_, fun t => ?_, fun policy => ?_⟩
  · rw [later.mutexes, first.mutexes]
    by_cases same : other = m
    · subst same
      simp [fresh]
    · simp [same]
  · rw [later.threads, first.threads, heads_rest, heads_cons]
    by_cases now : t ∈ k.heads [m] <;> by_cases then' : t ∈ k.heads rest <;>
      simp [now, then', Function.comp_def]
  · rw [later.levels, first.levels, heads_rest, heads_cons]
    simp [policies]

/-- A thread that was marked passes all its mutexes on. -/
theorem Ending.passesOwned_passAll (ids : List MutexId) (h : k.Ending id) (nodup : ids.Nodup)
    (owned : ∀ m ∈ ids, ∃ mutex, k.mutexes.get? m = some mutex ∧ mutex.owner = some id) :
    k.PassesOwned (ids.foldl (Kernel.passOn id) k) id ids := by
  induction ids generalizing k with
  | nil => exact ⟨fun m => by simp, fun t => by simp [heads], fun policy => by simp [heads]⟩
  | cons m rest ih =>
    obtain ⟨fresh, distinct⟩ := List.nodup_cons.mp nodup
    obtain ⟨mutex, found, owns⟩ := owned m List.mem_cons_self
    have first := h.passesOwned_passOn found owns
    refine first.trans (ih (h.passOn m) distinct fun other member => ?_) fresh
    have apart : other ∉ [m] := by
      rw [List.mem_singleton]
      exact fun same => fresh (same ▸ member)
    rw [first.mutexes, if_neg apart]
    exact owned other (List.mem_cons_of_mem _ member)

/-! ### The end -/

/-- A thread that was detached and marked still has the mutexes it owned. -/
private theorem owned_marked (h : k.Placement) (strange : k.Strange id)
    (found : k.threads.get? id = some thread) (busy : k.isIdle id = false)
    (member : m ∈ k.mutexes.ownedBy id) :
    ∃ mutex, k.mutexes.get? m = some mutex ∧ mutex.owner = some id ∧
      (k.marked id thread).mutexes.get? m = some mutex := by
  obtain ⟨mutex, registered, owns⟩ := h.mem_ownedBy_iff.mp member
  refine ⟨mutex, registered, owns, ?_⟩
  change (k.detached thread).mutexes.get? m = some mutex
  rw [(h.mutexes_detached strange found busy).1, registered, Option.map_some, if_pos owns]

/-- The next owners of a thread are known before the thread is marked. -/
private theorem heads_marked (h : k.Placement) (strange : k.Strange id)
    (found : k.threads.get? id = some thread) (busy : k.isIdle id = false) :
    (k.marked id thread).heads (k.mutexes.ownedBy id) = k.nextOwners id := by
  apply List.filterMap_congr
  intro m member
  obtain ⟨mutex, registered, _, same⟩ := owned_marked h strange found busy member
  rw [line_of_found same, line_of_found registered]

private theorem policyOf?_marked {place : Place}
    (unlists : k.Unlists (k.detached thread) id place) (t : ThreadId) :
    (k.marked id thread).policyOf? t = k.policyOf? t := by
  unfold policyOf?
  rw [show (k.marked id thread).threads.get? t = _ from ThreadTable.get?_modify .., unlists.threads]
  split
  · rename_i same
    rw [same, Option.map_map]
    rfl
  · rfl

/-- The end of a thread passes on all mutexes it owned. -/
private theorem passesOwned_ended (h : k.Placement) (strange : k.Strange id)
    (found : k.threads.get? id = some thread) (busy : k.isIdle id = false)
    (alive : thread.state ≠ .terminated) :
    (k.marked id thread).PassesOwned (k.ended thread) id (k.mutexes.ownedBy id) := by
  rw [h.ended_eq strange found busy alive, (h.mutexes_detached strange found busy).2]
  apply (h.ending_marked strange found busy alive).passesOwned_passAll _ (h.nodup_ownedBy id)
  intro m member
  obtain ⟨mutex, _, owns, same⟩ := owned_marked h strange found busy member
  exact ⟨mutex, same, owns⟩

/-- A next owner is another thread than the one that ends. -/
theorem Placement.ne_of_mem_nextOwners (h : k.Placement) (strange : k.Strange id) {t : ThreadId}
    (member : t ∈ k.nextOwners id) :
    ∃ m mutex, k.mutexes.get? m = some mutex ∧ mutex.owner = some id ∧
      mutex.waiting.head? = some t ∧ t ≠ id ∧ k.place? t = some (.inside (.line m)) := by
  obtain ⟨m, owned, first⟩ := List.mem_filterMap.mp member
  obtain ⟨mutex, found, owns⟩ := h.mem_ownedBy_iff.mp owned
  rw [line_of_found found] at first
  have waits : t ∈ mutex.waiting := List.mem_of_mem_head? first
  exact ⟨m, mutex, found, owns, first, fun same => strange found owns (same ▸ waits),
    (h.mem_waiting_iff found).mp waits⟩

/-- The end of a thread changes what it should and nothing else. -/
theorem Placement.ends_ended (h : k.Placement) (strange : k.Strange id)
    (found : k.threads.get? id = some thread) (busy : k.isIdle id = false)
    (alive : thread.state ≠ .terminated) : k.Ends (k.ended thread) id := by
  have unlists := Unlists.of_detached h strange found busy alive
  have passesOwned := passesOwned_ended h strange found busy alive
  have heads := heads_marked h strange found busy
  have marks : k.Amends (k.marked id thread) id
      ({ · with state := .terminated, waitingOn := none }) :=
    amends_of_modify (by rw [← unlists.threads]; rfl)
  have stranger : id ∉ k.nextOwners id := fun member =>
    have ⟨_, _, _, _, _, distinct, _⟩ := h.ne_of_mem_nextOwners strange member
    distinct rfl
  constructor
  · intro m
    rw [passesOwned.mutexes]
    change (if _ then ((k.detached thread).mutexes.get? m).map _
      else (k.detached thread).mutexes.get? m) = _
    rw [(h.mutexes_detached strange found busy).1]
    cases registered : k.mutexes.get? m with
    | none => simp
    | some mutex =>
      -- Mutexes that it owned were passed on, and from the others it was taken out before.
      by_cases owns : mutex.owner = some id
      · have member := h.mem_ownedBy_iff.mpr ⟨mutex, registered, owns⟩
        simp [member, owns]
      · have outside : m ∉ k.mutexes.ownedBy id := by
          rw [h.mem_ownedBy_iff]
          rintro ⟨other, same, owner⟩
          exact owns (Option.some.inj (registered.symm.trans same) ▸ owner)
        simp [outside, owns]
  · rw [passesOwned.threads, heads, if_neg stranger, marks, if_pos rfl]
  · intro t member
    obtain ⟨_, _, _, _, _, distinct, _⟩ := h.ne_of_mem_nextOwners strange member
    rw [passesOwned.threads, heads, if_pos member, marks.other distinct]
  · intro t distinct outside
    rw [passesOwned.threads, heads, if_neg outside, marks.other distinct]
  · intro policy
    rw [passesOwned.levels, heads]
    change (k.detached thread).ready.threadsAt policy ++ _ = _
    rw [h.levels_detached strange found busy alive]
    simp [policyOf?_marked unlists]

end ThreadScheduler.Kernel
