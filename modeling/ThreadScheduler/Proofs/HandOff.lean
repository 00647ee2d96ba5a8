/-
Module: ThreadScheduler.Proofs.HandOff
Purpose: How a mutex changes hands in one operation. It goes to the first in line, exactly when its
  owner gives up the last lock or ends while somebody waits, and a blocked thread goes on for no
  other reason than that the mutex is handed off to it.
Main exports: Moment.HandsOver, Moment.Takes.line_cases, Machine.handsOver_moment
-/
import Mathlib.Data.List.Nodup
import ThreadScheduler.Proofs.Custody
import ThreadScheduler.Proofs.Ownership

namespace ThreadScheduler

open Kernel

/-- A thread is blocked until it gets a mutex. -/
def Kernel.BlockedOn (k : Kernel) (t : ThreadId) (m : MutexId) : Prop :=
  ∃ thread, k.threads.get? t = some thread ∧ thread.state = .blocked ∧ thread.waitingOn = some m

/-- The line of a mutex is the threads that are blocked on it. -/
theorem Kernel.Regular.mem_line_iff {k : Kernel} {t : ThreadId} {m : MutexId} (h : k.Regular) :
    t ∈ k.line m ↔ k.BlockedOn t m := by
  refine ((h.placement.listed (.line m)).mem_iff t).trans (Option.map_eq_some_iff.trans ?_)
  exact exists_congr fun thread => and_congr_right fun _ => Thread.place_eq_line_iff

namespace Moment

/-- The owner of a mutex gives up its last lock, or ends, while somebody waits. -/
def Occasion (x : Moment) (m : MutexId) : Prop :=
  ∃ mutex owner, x.before.mutexes.get? m = some mutex ∧ mutex.owner = some owner ∧
    mutex.waiting ≠ [] ∧
    (x.operation = .unlock m ∧ x.before.caller x.cpu = .ok owner ∧ mutex.lockCount = 1 ∨
      x.Ends owner)

/-- The receivers of an operation, of whatever mutexes, go to the ends of their levels, and one
thread is among them. -/
def EnqueuesReceiver (x : Moment) (t : ThreadId) : Prop :=
  ∃ newcomers, t ∈ newcomers ∧ newcomers.Nodup ∧
    (∀ other, other ∈ newcomers ↔ ∃ m, x.receiver? m = some other) ∧ x.Enrolls newcomers

/-- A thread gets a mutex that it waited for. -/
structure Serves (x : Moment) (m : MutexId) (t : ThreadId) : Prop where
  waited : x.before.BlockedOn t m
  passes : ∃ mutex mutex', x.before.mutexes.get? m = some mutex ∧
    x.after.mutexes.get? m = some mutex' ∧ mutex.Passes t mutex'
  /-- It waits for nothing any more, and may have got a processor already. -/
  goes : ∃ thread, x.after.threads.get? t = some thread ∧ thread.waitingOn = none ∧
    (thread.state = .ready ∨ thread.state = .running)
  enqueuesReceiver : x.EnqueuesReceiver t

/-- How a mutex changes hands in one operation. -/
structure HandsOver (x : Moment) (m : MutexId) : Prop where
  occasion : (∃ t, x.receiver? m = some t) ↔ x.Occasion m
  serves : ∀ t, x.receiver? m = some t → x.Serves m t
  /-- Whoever is blocked stays so unless it is served or ends. -/
  patient : ∀ t, x.before.BlockedOn t m →
    x.after.BlockedOn t m ∨ x.receiver? m = some t ∨ x.Ends t
  /-- A mutex keeps owner and count unless its owner locks or unlocks it, or ends. -/
  steady : ∀ mutex owner, x.before.mutexes.get? m = some mutex → mutex.owner = some owner →
    (∃ mutex', x.after.mutexes.get? m = some mutex' ∧ mutex'.owner = some owner ∧
      mutex'.lockCount = mutex.lockCount) ∨
      x.before.caller x.cpu = .ok owner ∧ (x.operation = .lock m ∨ x.operation = .unlock m) ∨
      x.Ends owner

/-- A mutex goes from its owner to the first in line. -/
structure Transfer (x : Moment) (m : MutexId) (t : ThreadId) : Prop where
  received : x.receiver? m = some t
  nobody : x.asked m = none
  occasion : x.Occasion m
  passes : ∃ mutex mutex', x.before.mutexes.get? m = some mutex ∧
    x.after.mutexes.get? m = some mutex' ∧ mutex.Passes t mutex'
  enqueuesReceiver : x.EnqueuesReceiver t

variable {x : Moment} {course : Course} {m : MutexId} {t next : ThreadId} {mutex mutex' : Mutex}

theorem Transfer.line (transfer : x.Transfer m t) : x.before.line m = t :: x.after.line m := by
  obtain ⟨mutex, mutex', found, changed, passes⟩ := transfer.passes
  rw [line_of_found found, line_of_found changed, passes.waiting]

/-! ### Receivers -/

theorem receiver?_eq_some_iff :
    x.receiver? m = some t ↔
      ∃ owner, x.before.ownerOf? m = some owner ∧ x.after.ownerOf? m = some t ∧ owner ≠ t := by
  unfold receiver?
  split
  · rename_i owner next before after
    by_cases same : owner = next
    · subst same
      simp [before, after]
    · simp only [before, after, if_neg same, Option.some.injEq, exists_eq_left']
      constructor
      · rintro rfl
        exact ⟨rfl, same⟩
      · exact fun h => h.1
  · rename_i apart
    simp only [reduceCtorEq, false_iff, not_exists]
    rintro owner ⟨before, after, _⟩
    exact apart owner t before after

/-- A mutex that keeps its owner, or has none before or afterwards, is not handed off. -/
theorem receiver?_eq_none
    (keeps : x.before.ownerOf? m = none ∨ x.after.ownerOf? m = none ∨
      x.after.ownerOf? m = x.before.ownerOf? m) : x.receiver? m = none := by
  apply Option.eq_none_iff_forall_ne_some.mpr
  intro t received
  obtain ⟨owner, before, after, distinct⟩ := receiver?_eq_some_iff.mp received
  rcases keeps with free | freed | same
  · cases free.symm.trans before
  · cases freed.symm.trans after
  · exact distinct (Option.some.inj (before.symm.trans (same.symm.trans after)))

namespace Takes

/-- Whoever gets a mutex from its owner is its receiver. -/
theorem receiver?_of_passes (h : x.Takes course) (found : x.before.mutexes.get? m = some mutex)
    (changed : x.after.mutexes.get? m = some mutex') (owns : mutex.owner = some t)
    (passes : mutex.Passes next mutex') : x.receiver? m = some next := by
  refine receiver?_eq_some_iff.mpr ⟨t, (ownerOf?_of_found found).trans owns,
    (ownerOf?_of_found changed).trans passes.owner, ?_⟩
  rintro rfl
  exact h.regular.strange t found owns (passes.waiting ▸ List.mem_cons_self)

/-- Whoever owns a mutex after an operation did not end by it. -/
theorem not_ends_of_owner (h : x.Takes course) (found : x.after.mutexes.get? m = some mutex)
    (owns : mutex.owner = some t) : ¬ x.Ends t := by
  rintro ⟨_, ended⟩
  obtain ⟨⟨thread, known, alive⟩, _⟩ := (h.regular_after.soundlyHeld found).owner t owns
  simp [stateOf?, known, alive] at ended

/-- Whoever stands in line after an operation did not end by it. -/
theorem not_ends_of_mem_line (h : x.Takes course) (member : t ∈ x.after.line m) : ¬ x.Ends t := by
  rintro ⟨_, ended⟩
  obtain ⟨mutex, found, waits⟩ := exists_mutex_of_mem_line member
  obtain ⟨thread, known, blocked, _⟩ := (h.regular_after.mem_waiting_iff found).mp waits
  simp [stateOf?, known, blocked] at ended

/-! ### Newcomers -/

/-- The next owners of a thread that ends are the receivers of the operation. -/
private theorem mem_nextOwners_iff (h : x.Takes course)
    (changed : ∀ m, x.after.mutexes.get? m = (x.before.mutexes.get? m).map (·.without t)) :
    next ∈ x.before.nextOwners t ↔ ∃ m, x.receiver? m = some next := by
  constructor
  · intro member
    obtain ⟨m, mutex, found, owns, first, _⟩ :=
      h.regular.placement.ne_of_mem_nextOwners (h.regular.strange t) member
    have left : x.after.mutexes.get? m = some (mutex.without t) := by
      rw [changed, found, Option.map_some]
    rcases mutex.without_cases t with ⟨foreign, _⟩ | ⟨_, empty, _⟩ | ⟨nextOwner, _, passes⟩
    · exact absurd owns foreign
    · rw [empty] at first
      cases first
    · rw [passes.waiting] at first
      obtain rfl := Option.some.inj first
      exact ⟨m, h.receiver?_of_passes found left owns passes⟩
  · rintro ⟨m, received⟩
    obtain ⟨owner, before, after, distinct⟩ := receiver?_eq_some_iff.mp received
    obtain ⟨mutex, found, owns⟩ := Option.bind_eq_some_iff.mp before
    have left : x.after.mutexes.get? m = some (mutex.without t) := by
      rw [changed, found, Option.map_some]
    rw [ownerOf?_of_found left] at after
    rcases mutex.without_cases t with ⟨_, same, _⟩ | ⟨_, _, none, _⟩ | ⟨nextOwner, owned, passes⟩
    · exact absurd (Option.some.inj (owns.symm.trans (same.symm.trans after))) distinct
    · cases none.symm.trans after
    · obtain rfl := Option.some.inj (passes.owner.symm.trans after)
      exact h.regular.placement.mem_nextOwners found owned passes

/-- A thread gets one mutex at a time, the one it waits for. -/
private theorem nodup_nextOwners (h : x.Takes course) (t : ThreadId) :
    (x.before.nextOwners t).Nodup := by
  refine List.Nodup.filterMap ?_ (h.regular.placement.nodup_ownedBy t)
  intro m other nextOwner first second
  have place (m : MutexId) (first : (x.before.line m).head? = some nextOwner) :
      x.before.place? nextOwner = some (.inside (.line m)) :=
    ((h.regular.placement.listed (.line m)).mem_iff nextOwner).mp (List.mem_of_mem_head? first)
  have same := (place m first).symm.trans (place other second)
  exact Container.line.inj (Place.inside.inj (Option.some.inj same))

/-! ### Transfers -/

/-- The owner that gives up its last lock passes the mutex on. -/
private theorem transfer_of_unlock (h : x.Takes course) (nobody : x.asked m = none)
    (operation : x.operation = .unlock m) (caller : x.before.caller x.cpu = .ok t)
    (found : x.before.mutexes.get? m = some mutex) (passes : (mutex.unlock t).1 = .handedOff next)
    (changed : x.after.mutexes.get? m = some (mutex.unlock t).2)
    (others : ∀ other, other ≠ m → x.after.mutexes.get? other = x.before.mutexes.get? other)
    (enrolls : x.Enrolls [next]) : x.Transfer m next := by
  obtain ⟨owns, last, passed⟩ := Mutex.unlock_passes passes
  have received := h.receiver?_of_passes found changed owns passed
  have only (other : ThreadId) : other ∈ [next] ↔ ∃ m, x.receiver? m = some other := by
    rw [List.mem_singleton]
    refine ⟨fun same => ⟨m, same ▸ received⟩, ?_⟩
    rintro ⟨m', got⟩
    by_cases same : m' = m
    · exact Option.some.inj (got.symm.trans (same ▸ received))
    · have idle : x.receiver? m' = none := by
        refine receiver?_eq_none (.inr (.inr ?_))
        rw [ownerOf?, others m' same, ownerOf?]
      cases idle.symm.trans got
  have waits : mutex.waiting ≠ [] := by simp [passed.waiting]
  exact ⟨received, nobody, ⟨mutex, t, found, owns, waits, .inl ⟨operation, caller, last⟩⟩,
    ⟨mutex, _, found, changed, passed⟩,
    [next], List.mem_singleton_self next, List.nodup_singleton next, only, enrolls⟩

/-- An owner that ends passes the mutex on. -/
private theorem transfer_of_end (h : x.Takes course) (nobody : x.asked m = none) (ends : x.Ends t)
    (found : x.before.mutexes.get? m = some mutex) (owns : mutex.owner = some t)
    (passes : mutex.Passes next (mutex.without t))
    (changed : ∀ m, x.after.mutexes.get? m = (x.before.mutexes.get? m).map (·.without t))
    (enrolls : x.Enrolls (x.before.nextOwners t)) : x.Transfer m next := by
  have left : x.after.mutexes.get? m = some (mutex.without t) := by
    rw [changed, found, Option.map_some]
  have waits : mutex.waiting ≠ [] := by simp [passes.waiting]
  exact ⟨h.receiver?_of_passes found left owns passes, nobody,
    ⟨mutex, t, found, owns, waits, .inr ends⟩, ⟨mutex, _, found, left, passes⟩,
    x.before.nextOwners t, h.regular.placement.mem_nextOwners found owns passes,
    h.nodup_nextOwners t,
    fun other => h.mem_nextOwners_iff changed, enrolls⟩

/-! ### Lines -/

/-- The line of a mutex stays as it is, gets one more at its end, loses its first to whom the mutex
is handed off, or loses a thread that ends. -/
theorem line_cases (h : x.Takes course) (m : MutexId) :
    x.receiver? m = none ∧ x.asked m = none ∧ x.after.line m = x.before.line m ∨
      (∃ t, x.receiver? m = none ∧ x.asked m = some t ∧
        x.after.line m = x.before.line m ++ [t]) ∨
      (∃ t, x.Transfer m t) ∨
      ∃ t, x.receiver? m = none ∧ x.asked m = none ∧ x.Ends t ∧
        x.after.line m = (x.before.line m).erase t := by
  cases h.custody m with
  | untouched same nobody =>
    refine .inl ⟨receiver?_eq_none (.inr (.inr ?_)), nobody, ?_⟩
    · rw [ownerOf?, same, ownerOf?]
    · rw [line, same, line]
  | registered nobody fresh found free =>
    refine .inl ⟨receiver?_eq_none (.inl ?_), nobody, ?_⟩
    · simp [ownerOf?, fresh]
    · simp [line, found, fresh, Mutex.waiting_eq_nil_of_owner free]
  | removed nobody found free gone =>
    refine .inl ⟨receiver?_eq_none (.inl ?_), nobody, ?_⟩
    · rw [ownerOf?_of_found found, free]
    · simp [line, found, gone, Mutex.waiting_eq_nil_of_owner free]
  | locked nobody _ _ found granted changed =>
    obtain ⟨owner, waiting, before⟩ := Mutex.lock_granted granted
    refine .inl ⟨receiver?_eq_none ?_, nobody, ?_⟩
    · rw [ownerOf?_of_found found, ownerOf?_of_found changed, owner]
      rcases before with ⟨free, _⟩ | ⟨owns, _⟩
      · exact .inl free
      · exact .inr (.inr owns.symm)
    · rw [line_of_found found, line_of_found changed, waiting]
  | @queued t _ asks _ found waits changed =>
    obtain ⟨_, owner, _, waiting⟩ := Mutex.lock_waits waits
    refine .inr (.inl ⟨t, receiver?_eq_none (.inr (.inr ?_)), asks, ?_⟩)
    · rw [ownerOf?_of_found found, ownerOf?_of_found changed, owner]
    · rw [line_of_found found, line_of_found changed, waiting]
  | unlocked nobody _ _ found keeps changed =>
    obtain ⟨waiting, outcome⟩ := Mutex.unlock_keeps keeps
    refine .inl ⟨receiver?_eq_none (.inr ?_), nobody, ?_⟩
    · rw [ownerOf?_of_found found, ownerOf?_of_found changed]
      rcases outcome with ⟨_, same⟩ | ⟨before, after, _⟩ | ⟨_, _, _, free⟩
      · exact .inr (congrArg Mutex.owner same)
      · exact .inr (after.trans before.symm)
      · exact .inl free
    · rw [line_of_found found, line_of_found changed, waiting]
  | handedOff nobody operation caller found passes changed others enrolls =>
    exact .inr (.inr (.inl
      ⟨_, h.transfer_of_unlock nobody operation caller found passes changed others enrolls⟩))
  | @endsOnRequest t mutex nobody _ ends found changed enrolls =>
    have left : x.after.mutexes.get? m = some (mutex.without t) := by
      rw [changed, found, Option.map_some]
    -- Whoever ends did not own the mutex, or leaves it free, or it goes to the first in line.
    rcases mutex.without_cases t with ⟨_, owner, _, waiting⟩ | ⟨_, empty, owner, waiting⟩ |
      ⟨nextOwner, owns, passes⟩
    · refine .inr (.inr (.inr ⟨t, receiver?_eq_none (.inr (.inr ?_)), nobody, ends, ?_⟩))
      · rw [ownerOf?_of_found found, ownerOf?_of_found left, owner]
      · rw [line_of_found found, line_of_found left, waiting]
    · refine .inl ⟨receiver?_eq_none (.inr (.inl ?_)), nobody, ?_⟩
      · rw [ownerOf?_of_found left, owner]
      · rw [line_of_found found, line_of_found left, waiting, empty]
    · exact .inr (.inr (.inl
        ⟨nextOwner, h.transfer_of_end nobody ends found owns passes changed enrolls⟩))

/-! ### One operation -/

/-- Whoever gets a mutex waits for the processor afterwards, or has it. -/
private theorem place_of_enqueuesReceiver (h : x.Takes course)
    (enqueuesReceiver : x.EnqueuesReceiver t)
    (known : (x.before.threads.get? t).isSome) :
    (∃ policy, x.after.place? t = some (.inside (.level policy))) ∨
      x.after.running? x.cpu = some t := by
  obtain ⟨newcomers, member, _, _, queue, enrolls⟩ := enqueuesReceiver
  obtain ⟨thread, found⟩ := Option.isSome_iff_exists.mp known
  have ordered : queue.Ordered := by
    unfold ReadyQueue.Ordered
    rw [enrolls.policies]
    exact h.regular.placement.records.ordered
  have waits : t ∈ queue.toList := by
    refine (ReadyQueue.mem_toList_iff ordered).mpr ⟨thread.policy, ?_⟩
    rw [enrolls.levels]
    refine List.mem_append_right _ (List.mem_filter.mpr ⟨member, ?_⟩)
    simp [policyOf?, found]
  rcases enrolls.served with same | ⟨next, served, runs⟩
  · exact .inl (h.regular_after.placement.mem_ready_iff.mp (same ▸ waits))
  · rw [ReadyQueue.toList_of_dequeue served] at waits
    rcases List.mem_cons.mp waits with rfl | later
    · exact .inr runs
    · exact .inl (h.regular_after.placement.mem_ready_iff.mp later)

/-- Whoever gets a mutex stops waiting for anything but the processor. -/
theorem serves_of_transfer (h : x.Takes course) (transfer : x.Transfer m t) : x.Serves m t := by
  have waited : x.before.BlockedOn t m := by
    rw [← h.regular.mem_line_iff, transfer.line]
    exact List.mem_cons_self
  obtain ⟨mutex, mutex', found, changed, passes⟩ := transfer.passes
  obtain ⟨⟨record, known, alive⟩, _⟩ :=
    (h.regular_after.soundlyHeld changed).owner t passes.owner
  obtain ⟨old, present, _⟩ := id waited
  have state : record.state = .ready ∨ record.state = .running := by
    rcases h.place_of_enqueuesReceiver transfer.enqueuesReceiver (by simp [present]) with
      ⟨policy, stands⟩ | runs
    · rw [place?_of_found known] at stands
      exact .inl (Thread.place_eq_level_iff.mp (Option.some.inj stands)).1
    · rcases h.regular_after.placement.occupied.place_of_running runs with stands | stands
      · rw [place?_of_found known] at stands
        exact .inr (Thread.place_eq_processor_iff.mp (Option.some.inj stands))
      · rw [place?_of_found known] at stands
        exact absurd (Thread.place_eq_ended_iff.mp (Option.some.inj stands)) alive
  refine ⟨waited, transfer.passes, ⟨record, known, ?_, state⟩, transfer.enqueuesReceiver⟩
  have waits := h.regular_after.placement.records.waits known
  rw [← Option.not_isSome_iff_eq_none, waits]
  rcases state with ready | running
  · simp [ready]
  · simp [running]

/-- A mutex that is handed off goes to the first in line. -/
theorem transfer_of_received (h : x.Takes course) (received : x.receiver? m = some t) :
    x.Transfer m t := by
  rcases h.line_cases m with ⟨unserved, _⟩ | ⟨_, unserved, _⟩ | ⟨next, transfer⟩ |
    ⟨_, unserved, _⟩
  · cases unserved.symm.trans received
  · cases unserved.symm.trans received
  · obtain rfl := Option.some.inj (transfer.received.symm.trans received)
    exact transfer
  · cases unserved.symm.trans received

/-- Whoever stands in line stays there unless it is served or ends. -/
theorem patient (h : x.Takes course) (blocked : x.before.BlockedOn t m) :
    x.after.BlockedOn t m ∨ x.receiver? m = some t ∨ x.Ends t := by
  rw [← h.regular.mem_line_iff] at blocked
  rw [← h.regular_after.mem_line_iff]
  rcases h.line_cases m with ⟨_, _, same⟩ | ⟨_, _, _, joins⟩ | ⟨next, transfer⟩ |
    ⟨other, _, _, ends, leaves⟩
  · exact .inl (same ▸ blocked)
  · exact .inl (joins ▸ List.mem_append_left _ blocked)
  · rw [transfer.line] at blocked
    rcases List.mem_cons.mp blocked with rfl | later
    · exact .inr (.inl transfer.received)
    · exact .inl later
  · by_cases same : t = other
    · exact .inr (.inr (same ▸ ends))
    · exact .inl (leaves ▸ (List.mem_erase_of_ne same).mpr blocked)

/-- An owned mutex changes its owner or its count only by what its owner does, or by its end. -/
theorem steady (h : x.Takes course) (found : x.before.mutexes.get? m = some mutex)
    (owns : mutex.owner = some t) :
    (∃ mutex', x.after.mutexes.get? m = some mutex' ∧ mutex'.owner = some t ∧
      mutex'.lockCount = mutex.lockCount) ∨
      x.before.caller x.cpu = .ok t ∧ (x.operation = .lock m ∨ x.operation = .unlock m) ∨
      x.Ends t := by
  cases h.custody m with
  | untouched same => exact .inl ⟨mutex, same.trans found, owns, rfl⟩
  | registered _ fresh => cases fresh.symm.trans found
  | removed _ present free =>
    obtain rfl := Option.some.inj (present.symm.trans found)
    cases free.symm.trans owns
  | locked _ operation caller present granted =>
    obtain rfl := Option.some.inj (present.symm.trans found)
    obtain ⟨_, _, ⟨free, _⟩ | ⟨owned, _⟩⟩ := Mutex.lock_granted granted
    · cases free.symm.trans owns
    · obtain rfl := Option.some.inj (owned.symm.trans owns)
      exact .inr (.inl ⟨caller, .inl operation⟩)
  | queued _ _ present waits changed =>
    obtain rfl := Option.some.inj (present.symm.trans found)
    obtain ⟨_, owner, count, _⟩ := Mutex.lock_waits waits
    exact .inl ⟨_, changed, owner.trans owns, count⟩
  | unlocked _ operation caller present keeps changed =>
    obtain rfl := Option.some.inj (present.symm.trans found)
    obtain ⟨_, ⟨_, same⟩ | ⟨owned, _⟩ | ⟨owned, _⟩⟩ := Mutex.unlock_keeps keeps
    · exact .inl ⟨_, changed, (congrArg Mutex.owner same).trans owns,
        congrArg Mutex.lockCount same⟩
    · obtain rfl := Option.some.inj (owned.symm.trans owns)
      exact .inr (.inl ⟨caller, .inr operation⟩)
    · obtain rfl := Option.some.inj (owned.symm.trans owns)
      exact .inr (.inl ⟨caller, .inr operation⟩)
  | handedOff _ operation caller present passes =>
    obtain rfl := Option.some.inj (present.symm.trans found)
    obtain rfl := Option.some.inj ((Mutex.unlock_passes passes).1.symm.trans owns)
    exact .inr (.inl ⟨caller, .inr operation⟩)
  | @endsOnRequest other _ _ _ ends present changed =>
    obtain rfl := Option.some.inj (present.symm.trans found)
    have left := changed m
    rw [present, Option.map_some] at left
    rcases Mutex.without_cases _ other with ⟨_, owner, count, _⟩ | ⟨owned, _⟩ | ⟨_, owned, _⟩
    · exact .inl ⟨_, left, owner.trans owns, count⟩
    · obtain rfl := Option.some.inj (owned.symm.trans owns)
      exact .inr (.inr ends)
    · obtain rfl := Option.some.inj (owned.symm.trans owns)
      exact .inr (.inr ends)

/-- A mutex is handed off if its owner ends while somebody waits. -/
private theorem received_of_ends (h : x.Takes course)
    (found : x.before.mutexes.get? m = some mutex) (owns : mutex.owner = some t)
    (waits : mutex.waiting ≠ []) (ends : x.Ends t) : ∃ next, x.receiver? m = some next := by
  have loses {mutex' : Mutex} (changed : x.after.mutexes.get? m = some mutex') :
      mutex'.owner ≠ some t := fun owns => h.not_ends_of_owner changed owns ends
  cases h.custody m with
  | untouched same => exact absurd owns (loses (same.trans found))
  | registered _ fresh => cases fresh.symm.trans found
  | removed _ present free =>
    obtain rfl := Option.some.inj (present.symm.trans found)
    cases free.symm.trans owns
  | locked _ _ _ present granted changed =>
    obtain rfl := Option.some.inj (present.symm.trans found)
    obtain ⟨owner, _, ⟨free, _⟩ | ⟨owned, _⟩⟩ := Mutex.lock_granted granted
    · cases free.symm.trans owns
    · exact absurd (owner.trans (owned.symm.trans owns)) (loses changed)
  | queued _ _ present must changed =>
    obtain rfl := Option.some.inj (present.symm.trans found)
    exact absurd ((Mutex.lock_waits must).2.1.trans owns) (loses changed)
  | unlocked _ _ _ present keeps changed =>
    obtain rfl := Option.some.inj (present.symm.trans found)
    obtain ⟨_, ⟨_, same⟩ | ⟨owned, owner, _⟩ | ⟨_, _, empty, _⟩⟩ := Mutex.unlock_keeps keeps
    · exact absurd ((congrArg Mutex.owner same).trans owns) (loses changed)
    · exact absurd (owner.trans (owned.symm.trans owns)) (loses changed)
    · exact absurd empty waits
  | handedOff _ _ _ present passes changed =>
    obtain ⟨owned, _, passed⟩ := Mutex.unlock_passes passes
    exact ⟨_, h.receiver?_of_passes present changed owned passed⟩
  | @endsOnRequest other _ _ _ _ present changed =>
    obtain rfl := Option.some.inj (present.symm.trans found)
    have left := changed m
    rw [present, Option.map_some] at left
    rcases Mutex.without_cases _ other with ⟨_, owner, _⟩ | ⟨_, empty, _⟩ | ⟨_, owned, passes⟩
    · exact absurd (owner.trans owns) (loses left)
    · exact absurd empty waits
    · exact ⟨_, h.receiver?_of_passes present left owned passes⟩

/-- A mutex is handed off if its owner gives up the last lock while somebody waits. -/
private theorem received_of_unlock (h : x.Takes course) (operation : x.operation = .unlock m)
    (found : x.before.mutexes.get? m = some mutex) (passes : (mutex.unlock t).1 = .handedOff next)
    (caller : x.before.caller x.cpu = .ok t)
    (answer : x.result = .ok (.unlocked (mutex.unlock t).1)) : x.receiver? m = some next := by
  cases h.custody m with
  | untouched _ _ silent => exact absurd (passes ▸ answer) (silent operation next)
  | registered _ fresh => cases fresh.symm.trans found
  | removed _ present free =>
    obtain rfl := Option.some.inj (present.symm.trans found)
    cases free.symm.trans (Mutex.unlock_passes passes).1
  | locked _ asks => cases asks.symm.trans operation
  | queued _ asks => cases asks.symm.trans operation
  | unlocked _ _ calls present keeps =>
    obtain rfl := Option.some.inj (present.symm.trans found)
    obtain rfl := Except.ok.inj (calls.symm.trans caller)
    exact absurd passes (keeps next)
  | handedOff _ _ calls present passes' changed =>
    obtain rfl := Option.some.inj (present.symm.trans found)
    obtain rfl := Except.ok.inj (calls.symm.trans caller)
    obtain rfl := UnlockOutcome.handedOff.inj (passes.symm.trans passes')
    obtain ⟨owned, _, passed⟩ := Mutex.unlock_passes passes
    exact h.receiver?_of_passes present changed owned passed
  | endsOnRequest _ other => exact absurd operation other

end Takes

end Moment

/-- Every operation of a run hands every mutex over in this way. -/
theorem Machine.handsOver_moment {machine : Machine} (reached : machine.kernel.Reachable)
    (request : Request) (m : MutexId) : (machine.moment request).HandsOver m := by
  obtain ⟨course, h⟩ := exists_course reached request
  refine ⟨⟨fun ⟨t, received⟩ => (h.transfer_of_received received).occasion, ?_⟩,
    fun t received => h.serves_of_transfer (h.transfer_of_received received),
    fun t blocked => h.patient blocked, fun mutex owner found owns => h.steady found owns⟩
  rintro ⟨mutex, owner, found, owns, waits, ⟨operation, caller, last⟩ | ends⟩
  · obtain ⟨next, rest, line⟩ := List.exists_cons_of_ne_nil waits
    have passes := Mutex.unlock_of_last owns last line
    obtain ⟨thread, known, _⟩ :=
      Option.map_eq_some_iff.mp (caller_eq_ok_iff.mp caller).2.2
    have known : machine.kernel.threads.get? owner = some thread := known
    have begun := reached.regular.begun_of_known (Option.isSome_iff_exists.mpr ⟨thread, known⟩)
    have answer : (machine.moment request).result = .ok (.unlocked (mutex.unlock owner).1) := by
      change (machine.execute request.cpu request.operation).result = _
      rw [show request.operation = .unlock m from operation]
      exact result_unlock begun caller found
    exact ⟨next, h.received_of_unlock operation found passes caller answer⟩
  · exact h.received_of_ends found owns waits ends

end ThreadScheduler
