/-
Module: ThreadScheduler.Proofs.Isolation.View
Purpose: What is seen of a kernel above a cut, and how each single thing that an operation does
  looks from there. Threads below the cut can move as they like without being seen, and what is seen
  changes as if they were not there.
Main exports: Kernel.high?, Kernel.upper, Kernel.upper_makeReady, Kernel.upper_timeKept,
  Kernel.Vacant.upper_redispatch, Kernel.upper_ended
-/
import ThreadScheduler.Proofs.Isolation.Upper
import ThreadScheduler.Proofs.Placement.Seating
import ThreadScheduler.Proofs.Sleep
import ThreadScheduler.Proofs.Timeline.Sleepers

namespace ThreadScheduler

namespace Kernel

variable {k k' : Kernel} {cut here : Nat} {id t : ThreadId} {thread : Thread} {policy : Policy}
  {change : Thread → Thread} {m : MutexId} {mutex old : Mutex}

/-- The record of a thread above a cut. Idle threads are neither above nor below it. -/
def high? (k : Kernel) (cut : Nat) (id : ThreadId) : Option Thread :=
  if k.isIdle id then none else (k.threads.get? id).filter (·.policy.rank < cut)

/-- What is left of the slice of the thread that a processor runs. -/
def slice (k : Kernel) (here : Nat) : Duration := (k.cpus[here]?).elim .zero (·.slice)

/-- What is seen of a kernel above a cut, if processor 0 is its only one. -/
def upper (k : Kernel) (cut : Nat) : Upper where
  record := k.high? cut
  level policy := if policy.rank < cut then k.ready.threadsAt policy else []
  now := k.sleeping.now
  sleepers := k.sleeping.sleepers.filter fun sleeper => (k.high? cut sleeper.1).isSome
  mutexes := k.mutexes.toList
  running := ((k.running? 0).filter fun id => (k.high? cut id).isSome).map (·, k.slice 0)
  quantum := k.config.quantum

theorem high?_eq_some_iff :
    k.high? cut id = some thread ↔
      k.isIdle id = false ∧ k.threads.get? id = some thread ∧ thread.policy.rank < cut := by
  unfold high?
  cases k.isIdle id <;> simp [Option.filter_eq_some_iff]

/-- Idle threads are not seen. -/
theorem busy_of_seen (seen : (k.high? cut id).isSome) : k.isIdle id = false := by
  obtain ⟨thread, high⟩ := Option.isSome_iff_exists.mp seen
  exact (high?_eq_some_iff.mp high).1

theorem level_upper_eq_nil_iff :
    (k.upper cut).level policy = [] ↔ (policy.rank < cut → k.ready.threadsAt policy = []) :=
  ite_eq_right_iff

/-- A thread above the cut has a policy above the cut. -/
theorem any_high?_iff (busy : k.isIdle id = false) :
    (k.high? cut id).any (·.policy = policy) = true ↔
      policy.rank < cut ∧ k.policyOf? id = some policy := by
  simp only [Option.any_eq_true, high?_eq_some_iff, policyOf?, Option.map_eq_some_iff,
    decide_eq_true_eq]
  constructor
  · rintro ⟨thread, ⟨_, found, above⟩, rfl⟩
    exact ⟨above, thread, found, rfl⟩
  · rintro ⟨above, thread, found, rfl⟩
    exact ⟨thread, ⟨busy, found, above⟩, rfl⟩

/-- A change of a record that leaves the policy alone is a change of what is seen of it. -/
theorem high?_of_map (changed : k'.threads.get? t = (k.threads.get? t).map change)
    (keeps : ∀ thread, (change thread).policy = thread.policy)
    (idle : k'.isIdle t = k.isIdle t) : k'.high? cut t = (k.high? cut t).map change := by
  unfold high?
  rw [idle, changed]
  split
  · rfl
  · cases k.threads.get? t with
    | none => rfl
    | some thread => simp [Option.filter, keeps, apply_ite]

theorem high?_congr (same : k'.threads.get? t = k.threads.get? t)
    (idle : k'.isIdle t = k.isIdle t) : k'.high? cut t = k.high? cut t := by
  rw [high?, same, idle, high?]

theorem high?_of_amends (amends : k.Amends k' id change)
    (keeps : ∀ thread, (change thread).policy = thread.policy)
    (idle : ∀ t, k'.isIdle t = k.isIdle t) (t : ThreadId) :
    k'.high? cut t = if t = id then (k.high? cut id).map change else k.high? cut t := by
  split
  · rename_i same
    subst same
    apply high?_of_map _ keeps (idle t)
    rw [amends, if_pos rfl]
  · rename_i distinct
    exact high?_congr (amends.other distinct) (idle t)

theorem isSome_high?_of_amends (amends : k.Amends k' id change)
    (keeps : ∀ thread, (change thread).policy = thread.policy)
    (idle : ∀ t, k'.isIdle t = k.isIdle t) (t : ThreadId) :
    (k'.high? cut t).isSome = (k.high? cut t).isSome := by
  rw [high?_of_amends amends keeps idle]
  split
  · rename_i same
    rw [same, Option.isSome_map]
  · rfl

/-- A change of one record is seen as such, whatever becomes of the lists. -/
theorem upper_of_amends (amends : k.Amends k' id change)
    (keeps : ∀ thread, (change thread).policy = thread.policy) (cpus : k'.cpus = k.cpus)
    (config : k'.config = k.config) :
    k'.upper cut =
      { (k.upper cut).amend id change with
        level := (k'.upper cut).level
        now := k'.sleeping.now
        sleepers := k'.sleeping.sleepers.filter fun sleeper => (k.high? cut sleeper.1).isSome
        mutexes := k'.mutexes.toList } := by
  have idle (t : ThreadId) : k'.isIdle t = k.isIdle t := by rw [isIdle, cpus, isIdle]
  have seen (t : ThreadId) : (k'.high? cut t).isSome = (k.high? cut t).isSome :=
    isSome_high?_of_amends amends keeps idle t
  apply Upper.ext
  case record =>
    funext t
    exact high?_of_amends amends keeps idle t
  case sleepers => simp only [upper, seen]
  case running => simp only [upper, seen, running?, slice, cpus, Upper.amend]
  case quantum => exact congrArg Config.quantum config
  all_goals rfl

/-! ### Becoming ready -/

/-- A thread above the cut is seen to become ready; one below it is not. -/
theorem upper_makeReady (cut : Nat) (records : k.Records) (busy : k.isIdle id = false) :
    (k.makeReady id).1.upper cut = (k.upper cut).makeReady id := by
  cases found : k.threads.get? id with
  | none =>
    have same : (k.makeReady id).1 = k := by simp [makeReady, found]
    have unseen : k.high? cut id = none := by simp [high?, found]
    rw [same, Upper.makeReady_of_unseen unseen]
  | some thread =>
    obtain ⟨ready, queued, after⟩ := exists_ready_of_makeReady found (records.served found)
    have level := ReadyQueue.threadsAt_of_enqueue queued
    have amends := amends_makeReady k id
    rw [after] at amends ⊢
    rw [upper_of_amends amends (fun _ => rfl) rfl rfl]
    apply Upper.ext
    case level =>
      funext policy
      change (if policy.rank < cut then ready.threadsAt policy else []) =
        if (k.high? cut id).any (·.policy = policy) then
          (if policy.rank < cut then k.ready.threadsAt policy else []) ++ [id]
        else if policy.rank < cut then k.ready.threadsAt policy else []
      simp only [any_high?_iff busy, level, policyOf?, found, Option.map_some, Option.some.injEq]
      by_cases above : policy.rank < cut
      · by_cases own : policy = thread.policy
        · subst own
          simp [above]
        · have other : ¬ thread.policy = policy := fun same => own same.symm
          simp [above, own, other]
      · simp [above]
    all_goals rfl

theorem isIdle_makeReady (k : Kernel) (id t : ThreadId) :
    (k.makeReady id).1.isIdle t = k.isIdle t := by
  rw [isIdle, cpus_makeReady, isIdle]

theorem upper_makeReadyAll (ids : List ThreadId) (records : k.Records)
    (busy : ∀ id ∈ ids, k.isIdle id = false) :
    (k.makeReadyAll ids).upper cut = (k.upper cut).makeReadyAll ids := by
  induction ids generalizing k with
  | nil => rfl
  | cons id rest ih =>
    have first := upper_makeReady cut records (busy id List.mem_cons_self)
    have later : ∀ t ∈ rest, (k.makeReady id).1.isIdle t = false := by
      intro t member
      rw [isIdle_makeReady]
      exact busy t (List.mem_cons_of_mem id member)
    have woken := ih records.of_makeReady later
    rw [first] at woken
    exact woken

/-! ### The clock -/

/-- A thread that wakes up slept. -/
theorem Placement.place?_of_woken (h : k.Placement) (due : id ∈ k.woken) :
    k.place? id = some (.inside .timeline) := by
  apply h.mem_timeline_iff.mp
  rw [← Timeline.threads_advance k.sleeping k.timer.interrupt.1, ← Timeline.threads_drain]
  exact List.mem_append_left _ due

/-- The threads above the cut that are woken are those that are seen to be due. -/
theorem due_upper (punctual : k.sleeping.Punctual) :
    (k.upper cut).due k.timer.interrupt.1 =
      k.woken.filter fun id => ((k.upper cut).record id).isSome := by
  rw [woken, punctual.due_passed, List.filter_map]
  exact congrArg (List.map Prod.fst) (List.filter_comm _ _ _)

/-- The passing of time is seen as such. -/
theorem upper_timeKept (cut : Nat) (h : k.Placement) (punctual : k.sleeping.Punctual) :
    k.timeKept.upper cut = (k.upper cut).pass k.timer.interrupt.1 := by
  have records : Records { k with
      timer := k.timer.interrupt.2
      sleeping := (k.sleeping.advance k.timer.interrupt.1).drain.2 } :=
    h.records.of_same (fun _ => rfl) h.records.mutexHandle rfl
  have busy : ∀ id ∈ k.woken, k.isIdle id = false :=
    fun id due => h.busy_of_place (h.place?_of_woken due)
  have timed : Kernel.upper { k with
      timer := k.timer.interrupt.2
      sleeping := (k.sleeping.advance k.timer.interrupt.1).drain.2 } cut =
      { k.upper cut with
        now := k.sleeping.now + k.timer.interrupt.1
        sleepers := (k.upper cut).sleepers.filter
          (k.sleeping.now + k.timer.interrupt.1 < ·.2) } := by
    apply Upper.ext
    case sleepers =>
      change List.filter _ (Timeline.sleepers _) = List.filter _ (List.filter _ _)
      rw [punctual.sleepers_passed]
      exact List.filter_comm _ _ _
    all_goals rfl
  unfold timeKept
  rw [upper_makeReadyAll k.woken records busy, timed, ← Upper.makeReadyAll_filter]
  unfold Upper.pass
  rw [due_upper punctual]
  rfl

/-! ### The next thread -/

/-- A thread that stands down is not seen to, unless it is above the cut and still marked as
running. -/
theorem high?_vacate (gone : ∀ id, k.running? here = some id → (k.high? cut id).isSome →
      k.stateOf? id ≠ some .running) (t : ThreadId) :
    (k.vacate here).high? cut t = k.high? cut t := by
  unfold high?
  rw [isIdle_vacate, get?_vacate]
  split
  · rfl
  · rename_i busy
    split
    · rename_i both
      have unseen : ¬ (k.high? cut t).isSome := fun seen => gone t both.1 seen both.2
      cases found : k.threads.get? t with
      | none => rfl
      | some thread =>
        have low : ¬ thread.policy.rank < cut := fun above =>
          unseen (by simp [high?, busy, found, Option.filter, above])
        simp [Option.filter, low]
    · rfl

/-- The next thread is the first of a level above the cut, or it is not seen and nobody above the
cut waits. -/
theorem Vacant.next_cases {k' : Kernel} {next : ThreadId} (h : k.Vacant here) (cut : Nat)
    (installs : k.Installs k' here next) :
    (∃ policy, policy.rank < cut ∧ ((k.vacate here).high? cut next).isSome ∧
        k.ready.threadsAt policy = next :: k'.ready.threadsAt policy ∧
        (∀ p, p ≠ policy → k'.ready.threadsAt p = k.ready.threadsAt p) ∧
        ∀ p, p.Outranks policy → k.ready.threadsAt p = []) ∨
      (k.vacate here).high? cut next = none ∧
        ∀ p, p.rank < cut → k.ready.threadsAt p = [] ∧ k'.ready.threadsAt p = [] := by
  have ordered : k.ready.Ordered := h.placement.records.ordered
  rcases installs.ready_cases with served | ⟨nobody, owned, same⟩
  · obtain ⟨policy, head, others, above⟩ := ReadyQueue.exists_level_of_dequeue ordered served
    have stands : (k.vacate here).place? next = some (.inside (.level policy)) := by
      apply ((h.placement.listed (.level policy)).mem_iff next).mp
      change next ∈ k.ready.threadsAt policy
      rw [head]
      exact List.mem_cons_self
    obtain ⟨thread, found, place⟩ := exists_thread_of_place? stands
    obtain ⟨_, busy, rfl⟩ := Thread.place_eq_level_iff.mp place
    -- The level that serves is above the cut, or all levels above the cut are empty.
    by_cases high : thread.policy.rank < cut
    · left
      refine ⟨thread.policy, high, ?_, head, others, above⟩
      rw [high?_eq_some_iff.mpr ⟨busy, found, high⟩]
      rfl
    · right
      refine ⟨by simp [high?, busy, found, Option.filter, high], fun p upper => ?_⟩
      have outranks : p.Outranks thread.policy :=
        Nat.lt_of_lt_of_le upper (Nat.le_of_not_lt high)
      have other : p ≠ thread.policy := fun eq => high (eq ▸ upper)
      rw [others p other]
      exact ⟨above p outranks, above p outranks⟩
  · right
    have idle : (k.vacate here).isIdle next = true := by
      rw [isIdle_vacate]
      exact isIdle_iff.mpr ⟨here, owned⟩
    refine ⟨by simp [high?, idle], fun p _ => ?_⟩
    have empty : k.ready.threadsAt p = [] :=
      ReadyQueue.threadsAt_of_toList_eq_nil ordered (ReadyQueue.dequeue_eq_none_iff.mp nobody) p
    rw [same]
    exact ⟨empty, empty⟩

/-- A processor that gets a thread is seen to, unless the thread is not. -/
theorem upper_of_installs {next : ThreadId} (installs : k.Installs (k.redispatch 0) 0 next)
    (gone : ∀ id, k.running? 0 = some id → (k.high? cut id).isSome →
      k.stateOf? id ≠ some .running) :
    (k.redispatch 0).upper cut =
      { (k.upper cut).amend next ({ · with state := .running }) with
        level := ((k.redispatch 0).upper cut).level
        running := if (k.high? cut next).isSome then some (next, k.config.quantum) else none } := by
  have idle (t : ThreadId) : (k.redispatch 0).isIdle t = (k.vacate 0).isIdle t :=
    isIdle_congr installs.idle?
  have record (t : ThreadId) : (k.redispatch 0).high? cut t =
      if t = next then (k.high? cut next).map ({ · with state := .running })
      else k.high? cut t := by
    rw [high?_of_amends installs.amends (fun _ => rfl) idle, high?_vacate gone, high?_vacate gone]
  have seen (t : ThreadId) : ((k.redispatch 0).high? cut t).isSome = (k.high? cut t).isSome := by
    rw [isSome_high?_of_amends installs.amends (fun _ => rfl) idle, high?_vacate gone]
  obtain ⟨slot, found, picked⟩ := installs.picked
  have seated := cpus_redispatch found picked
  have runs : (k.redispatch 0).running? 0 = some next ∧
      (k.redispatch 0).slice 0 = k.config.quantum := by
    simp [running?, slice, seated, found, CpuSlot.seat]
  have frame : (k.redispatch 0).sleeping = k.sleeping ∧ (k.redispatch 0).mutexes = k.mutexes ∧
      (k.redispatch 0).config = k.config := by
    obtain ⟨_, _, _, _, same⟩ := installs.frame
    rw [same]
    exact ⟨rfl, rfl, rfl⟩
  apply Upper.ext
  case record => exact funext record
  case running =>
    simp only [upper, seen, runs, Option.filter]
    by_cases high : (k.high? cut next).isSome
    · rw [if_pos high, if_pos high]
      rfl
    · rw [if_neg high, if_neg high]
      rfl
  all_goals simp [upper, seen, frame, Upper.amend]

/-- A processor that gets its next thread is seen to get the next one above the cut. -/
theorem Vacant.upper_redispatch (h : k.Vacant 0)
    (gone : ∀ id, k.running? 0 = some id → (k.high? cut id).isSome →
      k.stateOf? id ≠ some .running) :
    (k.redispatch 0).upper cut = (k.upper cut).dispatch := by
  obtain ⟨next, installs⟩ := exists_installs h.idleAssigned
  rw [upper_of_installs installs gone]
  rcases h.next_cases cut installs with ⟨policy, above, high, first, others, outranking⟩ |
    ⟨low, empty⟩
  · rw [high?_vacate gone] at high
    have head : (k.upper cut).level policy = next :: (k.redispatch 0).ready.threadsAt policy := by
      simp [upper, above, first]
    have nobody (p : Policy) (outranks : p.Outranks policy) : (k.upper cut).level p = [] :=
      level_upper_eq_nil_iff.mpr fun _ => outranking p outranks
    rw [Upper.dispatch_of_first head nobody, if_pos high]
    apply Upper.ext
    case level =>
      funext p
      by_cases same : p = policy
      · simp [upper, same, above]
      · simp [upper, same, others p same]
    all_goals rfl
  · rw [high?_vacate gone] at low
    have before (p : Policy) : (k.upper cut).level p = [] :=
      level_upper_eq_nil_iff.mpr fun above => (empty p above).1
    have after (p : Policy) : ((k.redispatch 0).upper cut).level p = [] :=
      level_upper_eq_nil_iff.mpr fun above => (empty p above).2
    rw [Upper.dispatch_of_empty before, Upper.amend_of_unseen low, low]
    apply Upper.ext
    case level =>
      funext p
      exact (after p).trans (before p).symm
    all_goals rfl

/-! ### Mutexes -/

theorem mutex?_upper (cut : Nat) (records : k.Records) (m : MutexId) :
    (k.upper cut).mutex? m = k.mutexes.get? m :=
  MutexTable.find?_toList (fun _ _ => records.mutexHandle) m

/-- A mutex is replaced in its place in the list. -/
theorem toList_replace (records : k.Records) (found : k.mutexes.get? m = some old)
    (mutex : Mutex) : (k.mutexes.replace m mutex).toList =
      k.mutexes.toList.map fun old => if old.handle = m then mutex else old := by
  apply SlotTable.toList_of_get?
  intro other
  refine (MutexTable.get?_replace k.mutexes m other mutex).trans ?_
  change _ = (k.mutexes.get? other).map _
  split
  · rename_i same
    subst same
    simp [found, records.mutexHandle found]
  · rename_i distinct
    cases present : k.mutexes.get? other with
    | none => rfl
    | some kept => simp [records.mutexHandle present, distinct]

/-- A mutex that is replaced is seen to be. -/
theorem upper_setMutex (cut : Nat) (records : k.Records) (found : k.mutexes.get? m = some old)
    (mutex : Mutex) :
    Kernel.upper { k with mutexes := k.mutexes.replace m mutex } cut =
      (k.upper cut).setMutex m mutex := by
  apply Upper.ext
  case mutexes => exact toList_replace records found mutex
  all_goals rfl

/-- A thread that waits in the line of a mutex is seen to. -/
theorem upper_blocked (records : k.Records) (found : k.mutexes.get? m = some old)
    (mutex : Mutex) (id : ThreadId) :
    Kernel.upper { k with
      mutexes := k.mutexes.replace m mutex
      threads := k.threads.modify id ({ · with state := .blocked, waitingOn := some m }) } cut =
      ((k.upper cut).setMutex m mutex).amend id
        ({ · with state := .blocked, waitingOn := some m }) := by
  have amends : k.Amends { k with
      mutexes := k.mutexes.replace m mutex
      threads := k.threads.modify id ({ · with state := .blocked, waitingOn := some m }) } id
      ({ · with state := .blocked, waitingOn := some m }) := amends_of_modify rfl
  rw [upper_of_amends amends (fun _ => rfl) rfl rfl]
  apply Upper.ext
  case mutexes => exact toList_replace records found mutex
  all_goals rfl

/-! ### The end of a thread -/

theorem nextOwners_upper (cut : Nat) (records : k.Records) (id : ThreadId) :
    (k.upper cut).nextOwners id = k.nextOwners id := by
  unfold Upper.nextOwners nextOwners heads MutexTable.ownedBy
  rw [List.filterMap_map]
  apply List.filterMap_congr
  intro mutex owned
  obtain ⟨m, found⟩ := MutexTable.mem_toList_iff.mp (List.mem_filter.mp owned).1
  change mutex.waiting.head? = (k.line mutex.handle).head?
  rw [records.mutexHandle found, line_of_found found]

private theorem filter_eraseP {α : Type} {taken wanted : α → Bool} (list : List α)
    (unwanted : ∀ entry, taken entry → ¬ wanted entry) :
    (list.eraseP taken).filter wanted = list.filter wanted := by
  induction list with
  | nil => rfl
  | cons entry rest ih =>
    by_cases here : taken entry
    · rw [List.eraseP_cons_of_pos here, List.filter_cons_of_neg (unwanted entry here)]
    · rw [List.eraseP_cons_of_neg here, List.filter_cons, List.filter_cons, ih]

/-- A thread that ends leaves the timeline, and nobody else does. -/
theorem sleepers_ended (h : k.Regular) (punctual : k.sleeping.Punctual)
    (found : k.threads.get? id = some thread) (busy : k.isIdle id = false)
    (alive : thread.state ≠ .terminated) :
    (k.ended thread).sleeping.sleepers = k.sleeping.sleepers.filter (·.1 ≠ id) := by
  obtain ⟨placement, gone⟩ := h.placement.ended (h.strange id) found busy alive
  have absent : ∀ sleeper ∈ (k.ended thread).sleeping.sleepers, sleeper.1 ≠ id := by
    intro sleeper listed same
    have sleeps : id ∈ (k.ended thread).sleeping.threads := by
      rw [← Timeline.sleepers_threads, ← same]
      exact List.mem_map_of_mem listed
    cases gone.symm.trans (placement.mem_timeline_iff.mp sleeps)
  have all : (k.ended thread).sleeping.sleepers.filter (·.1 ≠ id) =
      (k.ended thread).sleeping.sleepers :=
    List.filter_eq_self.mpr fun sleeper listed => by simpa using absent sleeper listed
  rw [← all]
  rcases k.sleeping_ended thread with kept | taken
  · rw [kept]
  · rw [h.placement.records.handle found] at taken
    rw [punctual.sleepers_removed taken]
    exact filter_eraseP _ fun sleeper same => by simpa using same

/-- The next owners at a level above the cut are seen, and the others are not. -/
private theorem filter_nextOwners (h : k.Regular) (id : ThreadId) (policy : Policy) :
    ((k.nextOwners id).filter fun t => (k.high? cut t).any (·.policy = policy)) =
      if policy.rank < cut then (k.nextOwners id).filter (k.policyOf? · = some policy) else [] := by
  have nextOwner : ∀ t ∈ k.nextOwners id, (k.high? cut t).any (·.policy = policy) = true ↔
      policy.rank < cut ∧ k.policyOf? t = some policy := by
    intro t member
    obtain ⟨_, _, _, _, _, _, stands⟩ := h.placement.ne_of_mem_nextOwners (h.strange id) member
    exact any_high?_iff (h.placement.busy_of_place stands)
  split
  · rename_i above
    apply List.filter_congr
    intro t member
    rw [Bool.eq_iff_iff, nextOwner t member]
    simp [above]
  · rename_i below
    apply List.filter_eq_nil_iff.mpr
    intro t member seen
    exact below ((nextOwner t member).mp seen).1

/-- What is seen of each thread when one ends. -/
private theorem high?_ended (h : k.Regular) (found : k.threads.get? id = some thread)
    (busy : k.isIdle id = false) (alive : thread.state ≠ .terminated) (t : ThreadId) :
    (k.ended thread).high? cut t =
      if t = id then
        (k.high? cut id).map ({ · with state := .terminated, waitingOn := none })
      else if (k.nextOwners id).contains t then
        (k.high? cut t).map ({ · with state := .ready, waitingOn := none })
      else k.high? cut t := by
  have ends := h.placement.ends_ended (h.strange id) found busy alive
  have idle : (k.ended thread).isIdle t = k.isIdle t := by rw [isIdle, cpus_ended, isIdle]
  split
  · rename_i same
    subst same
    exact high?_of_map ends.victim (fun _ => rfl) idle
  · rename_i distinct
    split
    · rename_i passesOwned
      have nextOwner : t ∈ k.nextOwners id := List.contains_iff_mem.mp passesOwned
      exact high?_of_map (ends.nextOwner nextOwner) (fun _ => rfl) idle
    · rename_i outside
      have stranger : t ∉ k.nextOwners id := fun nextOwner =>
        outside (List.contains_iff_mem.mpr nextOwner)
      exact high?_congr (ends.other distinct stranger) idle

private theorem isSome_high?_ended (h : k.Regular) (found : k.threads.get? id = some thread)
    (busy : k.isIdle id = false) (alive : thread.state ≠ .terminated) (t : ThreadId) :
    ((k.ended thread).high? cut t).isSome = (k.high? cut t).isSome := by
  rw [high?_ended h found busy alive]
  split
  · rename_i same
    rw [same, Option.isSome_map]
  · split
    · exact Option.isSome_map
    · rfl

/-- The end of a thread is seen as such. -/
theorem upper_ended (h : k.Regular) (punctual : k.sleeping.Punctual)
    (found : k.threads.get? id = some thread) (busy : k.isIdle id = false)
    (alive : thread.state ≠ .terminated) :
    (k.ended thread).upper cut = (k.upper cut).ended id := by
  have ends := h.placement.ends_ended (h.strange id) found busy alive
  -- The view from above shows all mutexes, so it names the same next owners.
  have sameOwners := nextOwners_upper cut h.placement.records id
  have seen (t : ThreadId) : ((k.ended thread).high? cut t).isSome = (k.high? cut t).isSome :=
    isSome_high?_ended h found busy alive t
  have config : (k.ended thread).config = k.config := by
    obtain ⟨_, _, _, _, _, same⟩ := ended_frame k thread
    rw [same]
  apply Upper.ext
  case record =>
    funext t
    change (k.ended thread).high? cut t = _
    rw [high?_ended h found busy alive, ← sameOwners]
    rfl
  case level =>
    funext policy
    change _ = _ ++ List.filter _ ((k.upper cut).nextOwners id)
    rw [sameOwners]
    change _ = _ ++ (k.nextOwners id).filter fun t => (k.high? cut t).any (·.policy = policy)
    rw [filter_nextOwners h]
    unfold upper
    dsimp only
    split
    · exact ends.levels policy
    · rfl
  case now =>
    rcases k.sleeping_ended thread with kept | taken
    · exact congrArg Timeline.now kept
    · exact Timeline.now_remove taken
  case sleepers =>
    change List.filter _ (Timeline.sleepers _) = List.filter _ (List.filter _ _)
    simp only [seen]
    rw [sleepers_ended h punctual found busy alive]
    exact List.filter_comm _ _ _
  case mutexes => exact SlotTable.toList_of_get? ends.mutexes
  case running => simp only [upper, seen, running?, slice, cpus_ended, Upper.ended]
  case quantum => exact congrArg Config.quantum config

end Kernel

end ThreadScheduler
