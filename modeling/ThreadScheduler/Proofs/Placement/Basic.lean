/-
Module: ThreadScheduler.Proofs.Placement.Basic
Purpose: The place that the record of a thread names, and the invariant that every list and every
  processor of the kernel agrees with it. A thread has one place, so it is in one list at most.
Main exports: Container, Place, Thread.place, Kernel.place?, Kernel.members, Lists, Kernel.Records,
  Kernel.Occupied, Kernel.Placement, Kernel.Moves
-/
import ThreadScheduler.Kernel.State
import ThreadScheduler.Proofs.Levels
import ThreadScheduler.Proofs.Tables

namespace ThreadScheduler

/-- A list that threads stand in. -/
inductive Container where
  /-- The level of the ready queue for a policy. -/
  | level (policy : Policy)
  | timeline
  /-- The line of a mutex. -/
  | line (mutex : MutexId)
  /-- The terminated threads whose records are kept. -/
  | ended
  deriving DecidableEq

/-- Where a thread is. -/
inductive Place where
  | inside (container : Container)
  | processor
  /-- In no list and on no processor: an idle thread that does not run. -/
  | aside
  deriving DecidableEq

/-- The place that the record of a thread names. -/
def Thread.place (t : Thread) (idle : Bool) : Place :=
  match t.state with
  | .ready => if idle then .aside else .inside (.level t.policy)
  | .running => .processor
  | .sleeping => .inside .timeline
  | .blocked => t.waitingOn.elim .aside fun mutex => .inside (.line mutex)
  | .terminated => .inside .ended

namespace Thread

variable {t : Thread} {idle : Bool}

theorem place_eq_level_iff {policy : Policy} :
    t.place idle = .inside (.level policy) ↔
      t.state = .ready ∧ idle = false ∧ t.policy = policy := by
  unfold place
  cases t.state <;> cases idle <;> cases t.waitingOn <;> simp

theorem place_eq_timeline_iff : t.place idle = .inside .timeline ↔ t.state = .sleeping := by
  unfold place
  cases t.state <;> cases idle <;> cases t.waitingOn <;> simp

theorem place_eq_line_iff {mutex : MutexId} :
    t.place idle = .inside (.line mutex) ↔ t.state = .blocked ∧ t.waitingOn = some mutex := by
  unfold place
  cases t.state <;> cases idle <;> cases t.waitingOn <;> simp

theorem place_eq_ended_iff : t.place idle = .inside .ended ↔ t.state = .terminated := by
  unfold place
  cases t.state <;> cases idle <;> cases t.waitingOn <;> simp

theorem place_eq_processor_iff : t.place idle = .processor ↔ t.state = .running := by
  unfold place
  cases t.state <;> cases idle <;> cases t.waitingOn <;> simp

theorem place_eq_aside_iff :
    t.place idle = .aside ↔
      t.state = .ready ∧ idle = true ∨ t.state = .blocked ∧ t.waitingOn = none := by
  unfold place
  cases t.state <;> cases idle <;> cases t.waitingOn <;> simp

end Thread

/-- A list holds exactly the threads with a property, each of them once. -/
structure Lists (threads : List ThreadId) (property : ThreadId → Prop) : Prop where
  once : threads.Nodup
  mem_iff : ∀ id, id ∈ threads ↔ property id

namespace Lists

variable {threads others : List ThreadId} {property property' : ThreadId → Prop} {id : ThreadId}

theorem congr (h : Lists threads property) (same : ∀ id, property id ↔ property' id) :
    Lists threads property' :=
  ⟨h.once, fun id => (h.mem_iff id).trans (same id)⟩

/-- A thread that gets the property joins the list. -/
theorem join (h : Lists threads property) (added : others.Perm (id :: threads))
    (fresh : ¬ property id) (grows : ∀ other, property' other ↔ other = id ∨ property other) :
    Lists others property' := by
  constructor
  · exact added.nodup_iff.mpr
      (List.nodup_cons.mpr ⟨fun member => fresh ((h.mem_iff id).mp member), h.once⟩)
  · intro other
    rw [added.mem_iff, List.mem_cons, h.mem_iff, grows]

/-- A thread that loses the property leaves the list. -/
theorem leave (h : Lists threads property) (taken : threads.Perm (id :: others))
    (shrinks : ∀ other, property' other ↔ other ≠ id ∧ property other) :
    Lists others property' := by
  have once := taken.nodup_iff.mp h.once
  rw [List.nodup_cons] at once
  refine ⟨once.2, fun other => ?_⟩
  rw [shrinks, ← h.mem_iff, taken.mem_iff, List.mem_cons]
  constructor
  · exact fun member => ⟨fun same => once.1 (same ▸ member), .inr member⟩
  · exact fun ⟨distinct, member⟩ => member.resolve_left distinct

end Lists

namespace Kernel

/-- The place of a thread, if it has a record. -/
def place? (k : Kernel) (id : ThreadId) : Option Place :=
  (k.threads.get? id).map (·.place (k.isIdle id))

/-- The line of a mutex; nobody waits for a mutex that is not registered. -/
def line (k : Kernel) (id : MutexId) : List ThreadId :=
  (k.mutexes.get? id).elim [] (·.waiting)

/-- The threads in a container. -/
def members (k : Kernel) : Container → List ThreadId
  | .level policy => k.ready.threadsAt policy
  | .timeline => k.sleeping.threads
  | .line mutex => k.line mutex
  | .ended => k.terminated

/-- What holds of each record by itself. -/
structure Records (k : Kernel) : Prop where
  handle : ∀ {id thread}, k.threads.get? id = some thread → thread.id = id
  mutexHandle : ∀ {id mutex}, k.mutexes.get? id = some mutex → mutex.handle = id
  /-- A thread names a mutex to wait for exactly while it is blocked. -/
  waits : ∀ {id thread}, k.threads.get? id = some thread →
    (thread.waitingOn.isSome ↔ thread.state = .blocked)
  served : ∀ {id thread}, k.threads.get? id = some thread → thread.policy ∈ k.ready.policies
  ordered : k.ready.Ordered

/-- What holds of the processors. -/
structure Occupied (k : Kernel) : Prop where
  /-- A running thread may have been terminated meanwhile by another processor. -/
  place_of_running : ∀ {cpu id}, k.running? cpu = some id →
    k.place? id = some .processor ∨ k.place? id = some (.inside .ended)
  running_of_place : ∀ {id}, k.place? id = some .processor → ∃ cpu, k.running? cpu = some id
  one : ∀ {a b id}, k.running? a = some id → k.running? b = some id → a = b
  idle : ∀ {cpu id}, k.idle? cpu = some id →
    k.place? id = some .aside ∨ k.place? id = some .processor
  /-- An idle thread runs on no other processor than its own. -/
  home : ∀ {a b id}, k.idle? a = some id → k.running? b = some id → a = b
  own : ∀ {a b id}, k.idle? a = some id → k.idle? b = some id → a = b
  previous : ∀ {cpu : Nat} {slot : CpuSlot} {id : ThreadId}, k.cpus[cpu]? = some slot →
    slot.previous = some id → (k.threads.get? id).isSome

/-- Every list and every processor agrees with the places that the records name. -/
structure Placement (k : Kernel) : Prop where
  records : k.Records
  occupied : k.Occupied
  listed : ∀ c, Lists (k.members c) fun id => k.place? id = some (.inside c)

/-- One thread goes from a place to another one, and every list changes accordingly. A thread that
has no place yet, or that loses its record, has the place `none`. -/
structure Moves (k k' : Kernel) (id : ThreadId) (origin target : Option Place) : Prop where
  before : k.place? id = origin
  changes : origin ≠ target
  place : ∀ other, k'.place? other = if other = id then target else k.place? other
  leaves : ∀ c, origin = some (.inside c) → (k.members c).Perm (id :: k'.members c)
  joins : ∀ c, target = some (.inside c) → (k'.members c).Perm (id :: k.members c)
  stays : ∀ c, origin ≠ some (.inside c) → target ≠ some (.inside c) →
    k'.members c = k.members c

/-- After a move the lists agree with the places again. -/
theorem Moves.listed {k k' : Kernel} {id : ThreadId} {origin target : Option Place}
    (moves : k.Moves k' id origin target)
    (h : ∀ c, Lists (k.members c) fun other => k.place? other = some (.inside c)) (c : Container) :
    Lists (k'.members c) fun other => k'.place? other = some (.inside c) := by
  have old := h c
  by_cases left : origin = some (.inside c)
  · apply old.leave (moves.leaves c left)
    intro other
    rw [moves.place]
    by_cases moved : other = id
    · simpa [moved] using fun same => moves.changes (left.trans same.symm)
    · simp [moved]
  · by_cases joined : target = some (.inside c)
    · apply old.join (moves.joins c joined) (by rwa [moves.before])
      intro other
      rw [moves.place]
      by_cases moved : other = id <;> simp [moved, joined]
    · rw [moves.stays c left joined]
      apply old.congr
      intro other
      rw [moves.place]
      by_cases moved : other = id
      · subst moved
        simp [moves.before, left, joined]
      · simp [moved]

end Kernel

end ThreadScheduler
