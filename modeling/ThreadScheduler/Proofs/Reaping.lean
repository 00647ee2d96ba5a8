/-
Module: ThreadScheduler.Proofs.Reaping
Purpose: Reaping frees exactly what nobody needs. The terminated threads that no processor runs or
  has just left are forgotten, their stacks go back to the pool, and nothing else happens.
Main exports: Kernel.Unneeded, Kernel.Forgets, Kernel.Reaps, Kernel.Regular.reaps,
  Machine.exists_reaps, Machine.reap_again
-/
import ThreadScheduler.Proofs.Finality
import ThreadScheduler.Proofs.Stacks

namespace ThreadScheduler

/-- A record that is found can be taken out, and the table holds one record less. -/
theorem ThreadTable.exists_remove {t : ThreadTable} {id : ThreadId} {thread : Thread}
    (found : t.get? id = some thread) :
    ∃ rest, t.remove id = some (thread, rest) ∧ rest.length = t.length - 1 ∧
      rest.limit = t.limit := by
  have taken : t.records.get? id = some thread := found
  unfold remove SlotTable.take
  rw [taken]
  exact ⟨_, rfl, rfl, rfl⟩

namespace Kernel

variable {k k' k'' : Kernel} {t id : ThreadId} {thread : Thread} {ids : List ThreadId}

/-- A terminated thread that is neither the running nor the previous thread of any processor. -/
structure Unneeded (k : Kernel) (t : ThreadId) : Prop where
  ended : k.stateOf? t = some .terminated
  released : ∀ slot ∈ k.cpus, slot.running ≠ some t ∧ slot.previous ≠ some t

/-- The stack that a thread has from the pool. -/
def stackOf? (k : Kernel) (t : ThreadId) : Option Stack :=
  (k.threads.get? t).bind (·.pooledStack)

/-- A kernel forgets some threads and gets their stacks back, and that is all. -/
structure Forgets (k : Kernel) (ids : List ThreadId) (k' : Kernel) : Prop where
  records : ∀ t, k'.threads.get? t = if t ∈ ids then none else k.threads.get? t
  number : k'.threads.length = k.threads.length - ids.length
  mark : k'.threads.mark = k.threads.mark
  limit : k'.threads.limit = k.threads.limit
  pool : (k'.pool, k'.heap) = k.pool.deallocateAll k.heap (ids.filterMap k.stackOf?)
  frame : ∃ threads pool heap, k' = { k with threads, pool, heap }

theorem Forgets.nil (k : Kernel) : k.Forgets [] k :=
  ⟨fun _ => rfl, rfl, rfl, rfl, rfl, _, _, _, rfl⟩

theorem forgets_reapThread (found : k.threads.get? id = some thread) :
    k.Forgets [id] (k.reapThread id) := by
  obtain ⟨rest, removed, number, limit⟩ := ThreadTable.exists_remove found
  have mark : (k.reapThread id).threads.mark = k.threads.mark := KeepsGone.mark_reapAll [id] k
  have threads : (k.reapThread id).threads = rest := by rw [threads_reapThread, removed]; rfl
  refine ⟨fun t => ?_, ?_, mark, ?_, ?_, reapAll_frame [id] k⟩
  · rw [threads, ThreadTable.get?_of_remove removed]
    simp only [List.mem_singleton]
  · rw [threads, number, List.length_singleton]
  · rw [threads, limit]
  · unfold reapThread
    cases stack : thread.pooledStack <;> simp [removed, stackOf?, found, stack] <;> rfl

/-- Threads are forgotten one after the other. -/
theorem Forgets.cons (first : k.Forgets [id] k') (later : k'.Forgets ids k'')
    (fresh : id ∉ ids) : k.Forgets (id :: ids) k'' where
  records t := by
    rw [later.records, first.records]
    by_cases behind : t ∈ ids <;> simp [behind]
  number := by
    rw [later.number, first.number, Nat.sub_sub, List.length_singleton, List.length_cons,
      Nat.add_comm]
  mark := later.mark.trans first.mark
  limit := later.limit.trans first.limit
  pool := by
    have others : ids.filterMap k'.stackOf? = ids.filterMap k.stackOf? := by
      apply List.filterMap_congr
      intro t member
      have distinct : t ∉ [id] := fun same => fresh (List.mem_singleton.mp same ▸ member)
      rw [stackOf?, first.records, if_neg distinct, stackOf?]
    obtain ⟨pool, heap⟩ := Prod.mk.inj first.pool
    rw [later.pool, pool, heap, others, ← StackPool.deallocateAll_append, ← List.filterMap_append,
      List.singleton_append]
  frame := by
    obtain ⟨_, _, _, rfl⟩ := first.frame
    obtain ⟨threads, pool, heap, rfl⟩ := later.frame
    exact ⟨threads, pool, heap, rfl⟩

/-- Threads that have records are forgotten by reaping them. -/
theorem forgets_reapAll (once : ids.Nodup) (known : ∀ id ∈ ids, (k.threads.get? id).isSome) :
    k.Forgets ids (ids.foldl reapThread k) := by
  induction ids generalizing k with
  | nil => exact .nil k
  | cons id rest ih =>
    obtain ⟨fresh, others⟩ := List.nodup_cons.mp once
    obtain ⟨thread, found⟩ := Option.isSome_iff_exists.mp (known id List.mem_cons_self)
    have first := forgets_reapThread found
    refine first.cons (ih others fun other member => ?_) fresh
    have distinct : other ∉ [id] := fun same => fresh (List.mem_singleton.mp same ▸ member)
    rw [first.records, if_neg distinct]
    exact known other (List.mem_cons_of_mem _ member)

/-- The threads that reaping frees. -/
def unneeded (k : Kernel) : List ThreadId := k.terminated.filter (! k.isReferenced ·)

theorem isReferenced_eq_false_iff :
    k.isReferenced t = false ↔
      ∀ slot ∈ k.cpus, slot.running ≠ some t ∧ slot.previous ≠ some t := by
  simp [isReferenced]

/-- A thread is among the terminated ones exactly if its record says that it has ended. -/
theorem Placement.mem_terminated_iff (h : k.Placement) :
    t ∈ k.terminated ↔ k.stateOf? t = some .terminated := by
  have listed : t ∈ k.terminated ↔ k.place? t = some (.inside .ended) := (h.listed .ended).mem_iff t
  rw [listed]
  simp only [place?, stateOf?, Option.map_eq_some_iff, Thread.place_eq_ended_iff]

theorem Placement.mem_unneeded_iff (h : k.Placement) : t ∈ k.unneeded ↔ k.Unneeded t := by
  rw [unneeded, List.mem_filter, h.mem_terminated_iff, Bool.not_eq_true', isReferenced_eq_false_iff]
  exact ⟨fun both => ⟨both.1, both.2⟩, fun both => ⟨both.1, both.2⟩⟩

/-- What reaping does: exactly the unneeded threads are forgotten, and exactly their stacks are
given back to the pool, one after the other. The pool keeps each of them, unless the host refuses
the room to do so. -/
structure Reaps (k : Kernel) (gone : List ThreadId) (k' : Kernel) : Prop where
  once : gone.Nodup
  mem_iff : ∀ t, t ∈ gone ↔ k.Unneeded t
  records : ∀ t, k'.threads.get? t = if t ∈ gone then none else k.threads.get? t
  number : k'.threads.length = k.threads.length - gone.length
  mark : k'.threads.mark = k.threads.mark
  limit : k'.threads.limit = k.threads.limit
  pool : (k'.pool, k'.heap) = k.pool.deallocateAll k.heap (gone.filterMap k.stackOf?)
  back : ∃ lost, k.pool.TakesBack k.heap (gone.filterMap k.stackOf?) lost k'.pool k'.heap ∧
    (k.heap.NeverFails → lost = [])
  frame : ∃ threads pool heap, k' =
    { k with threads, pool, heap, terminated := k.terminated.filter (· ∉ gone) }

theorem Regular.known_of_unneeded (h : k.Regular) (member : id ∈ k.unneeded) :
    (k.threads.get? id).isSome := by
  have ended := (h.placement.mem_unneeded_iff.mp member).ended
  obtain ⟨thread, found, _⟩ := Option.map_eq_some_iff.mp ended
  rw [found]
  rfl

theorem Regular.nodup_unneeded (h : k.Regular) : k.unneeded.Nodup :=
  (h.placement.listed .ended).once.filter _

theorem Regular.reaps (h : k.Regular) : k.Reaps k.unneeded k.reaped := by
  have kept : k.terminated.filter k.isReferenced = k.terminated.filter (· ∉ k.unneeded) := by
    apply List.filter_congr
    intro t listed
    simp [unneeded, listed]
  have known : ∀ id ∈ k.unneeded, ({ k with
      terminated := k.terminated.filter (· ∉ k.unneeded) }.threads.get? id).isSome :=
    fun id member => h.known_of_unneeded member
  have forgets := forgets_reapAll h.nodup_unneeded known
  have after : k.reaped = k.unneeded.foldl reapThread { k with
      terminated := k.terminated.filter (· ∉ k.unneeded) } := by
    rw [Kernel.reaped, kept]
    rfl
  obtain ⟨lost, back⟩ := k.pool.takesBack k.heap (k.unneeded.filterMap k.stackOf?)
  have pool := forgets.pool
  rw [← after] at forgets pool
  refine ⟨h.nodup_unneeded, fun t => h.placement.mem_unneeded_iff, forgets.records,
    forgets.number, forgets.mark, forgets.limit, pool, ⟨lost, ?_, back.lost_eq_nil⟩, forgets.frame⟩
  obtain ⟨pool, heap⟩ := Prod.mk.inj pool
  rw [pool, heap]
  exact back

/-- A kernel that was reaped has nothing left to reap. -/
theorem Regular.unneeded_reaped (h : k.Regular) : k.reaped.unneeded = [] := by
  apply List.eq_nil_iff_forall_not_mem.mpr
  intro t member
  have reaps := h.reaps
  have still := h.placement.reaped.mem_unneeded_iff.mp member
  have kept : t ∉ k.unneeded := by
    intro gone
    have ended := still.ended
    rw [stateOf?, reaps.records, if_pos gone] at ended
    cases ended
  apply kept
  apply h.placement.mem_unneeded_iff.mpr
  refine ⟨?_, ?_⟩
  · have ended := still.ended
    rwa [stateOf?, reaps.records, if_neg kept] at ended
  · have released := still.released
    obtain ⟨_, _, _, same⟩ := reaps.frame
    rwa [same] at released

end Kernel

namespace Call

variable {m : Machine}

/-- Reaping counts the records that it frees. -/
theorem ensures_reapThreads {ids : List ThreadId} (once : ids.Nodup)
    (known : ∀ id ∈ ids, (m.kernel.threads.get? id).isSome) :
    (reapThreads ids).Ensures m
      (fun count after => count = ids.length ∧ after.kernel = ids.foldl Kernel.reapThread m.kernel)
      fun _ _ => False := by
  induction ids generalizing m with
  | nil => exact ⟨rfl, rfl⟩
  | cons id rest ih =>
    obtain ⟨fresh, others⟩ := List.nodup_cons.mp once
    obtain ⟨thread, found⟩ := Option.isSome_iff_exists.mp (known id List.mem_cons_self)
    have first : (reapThread id).Ensures m
        (fun count after => count = 1 ∧ after.kernel = m.kernel.reapThread id)
        fun _ _ => False := by
      obtain ⟨threads, removed, _⟩ := ThreadTable.exists_remove found
      unfold reapThread Kernel.reapThread
      simp only [ensures_bind, ensures_kernel, removed, ensures_update, ensures_log]
      cases thread.pooledStack <;> exact ⟨rfl, rfl⟩
    refine first.bind ?_ fun _ _ never => never
    rintro _ between ⟨rfl, betweenEq⟩
    have still : ∀ other ∈ rest, (between.kernel.threads.get? other).isSome := by
      intro other member
      have distinct : other ∉ [id] := fun same => fresh (List.mem_singleton.mp same ▸ member)
      rw [betweenEq, (Kernel.forgets_reapThread found).records, if_neg distinct]
      exact known other (List.mem_cons_of_mem _ member)
    refine (ih others still).bind ?_ fun _ _ never => never
    rintro _ after ⟨rfl, afterEq⟩
    exact ⟨Nat.add_comm _ _, by rw [afterEq, betweenEq]; rfl⟩

/-- Reaping answers with the number of unneeded threads. -/
theorem ensures_count_reap (regular : m.kernel.Regular) :
    reap.Ensures m
      (fun count after => count = m.kernel.unneeded.length ∧ after.kernel = m.kernel.reaped)
      fun _ _ => False := by
  unfold reap
  simp only [ensures_critical, ensures_bind, ensures_kernel, ensures_put, Machine.kernel_mask,
    List.partition_eq_filter_filter]
  refine (ensures_reapThreads regular.nodup_unneeded ?_).mono ?_ fun _ _ never => never
  · exact fun id member => regular.known_of_unneeded member
  · rintro count after ⟨counted, afterEq⟩
    rw [Machine.kernel_unmask, afterEq]
    exact ⟨counted, rfl⟩

end Call

namespace Machine

variable {m : Machine}

theorem execute_reap (regular : m.kernel.Regular) (cpu : Nat) :
    (m.execute cpu .reap).result = .ok (.count m.kernel.unneeded.length) ∧
      (m.execute cpu .reap).machine.kernel = m.kernel.reaped := by
  refine execute_of_ensures (fun result after =>
    result = .ok (.count m.kernel.unneeded.length) ∧ after.kernel = m.kernel.reaped) ?_
  apply (Call.ensures_map _ _).mpr
  have counted : Call.reap.Ensures { m with cpu, trace := [] } _ _ :=
    Call.ensures_count_reap regular
  refine counted.mono ?_ fun _ _ never => never.elim
  rintro count after ⟨rfl, afterEq⟩
  exact ⟨rfl, afterEq⟩

/-- Reaping frees exactly what is not needed and tells how much that was. -/
theorem exists_reaps (regular : m.kernel.Regular) (cpu : Nat) :
    ∃ gone, m.kernel.Reaps gone (m.execute cpu .reap).machine.kernel ∧
      (m.execute cpu .reap).result = .ok (.count gone.length) := by
  obtain ⟨result, after⟩ := execute_reap regular cpu
  exact ⟨m.kernel.unneeded, after ▸ regular.reaps, result⟩

/-- Reaping once more finds nothing to free. -/
theorem reap_again (reached : m.kernel.Reachable) (cpu next : Nat) :
    ((m.execute cpu .reap).machine.execute next .reap).result = .ok (.count 0) := by
  have once := (execute_reap reached.regular cpu).2
  have again := (execute_reap (reached.step cpu .reap).regular next).1
  rw [again, once, reached.regular.unneeded_reaped]
  rfl

end Machine

end ThreadScheduler
