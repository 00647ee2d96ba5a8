/-
Module: ThreadScheduler.Proofs.Handles
Purpose: Handles are given out one after the other, and each one once. What a handle named is found
  under it until it is removed, and from then on the handle is answered as one that names nothing.
Main exports: SlotTable.Continues, Moment.threadsIssued, Moment.mutexesIssued,
  Machine.threads_continue_run, Machine.mutexes_continue_run, Machine.IssuesOnce, Machine.issuesOnce
-/
import ThreadScheduler.Proofs.Dormancy
import ThreadScheduler.Proofs.Finality
import ThreadScheduler.Proofs.Refusal
import ThreadScheduler.Proofs.Slots

namespace ThreadScheduler

namespace SlotTable

variable {kind : HandleKind} {α : Type} {t t' t'' : SlotTable kind α} {limit : Nat}
variable {issued more : List (Handle kind)}

/-- From one state of a table to another handles were issued to new records: the next ones, in their
order and within a limit. No handle of before that names nothing was given a record, and the records
are counted as before. -/
structure Continues (limit : Nat) (t t' : SlotTable kind α)
    (issued : List (Handle kind)) : Prop where
  consecutive : issued = (List.range' t.slots.length issued.length).map .ofIndex
  length : t'.slots.length = t.slots.length + issued.length
  vacant : ∀ id : Handle kind, id.index < t.slots.length → t.get? id = none → t'.get? id = none
  bounded : ∀ id ∈ issued, id.value ≤ limit
  counted : t.Counted → t'.Counted

namespace Continues

/-- Nothing is issued while no record is added. -/
theorem of_same (length : t'.slots.length = t.slots.length)
    (vacant : ∀ id, t.get? id = none → t'.get? id = none) (counted : t.Counted → t'.Counted) :
    Continues limit t t' [] where
  consecutive := rfl
  length := length
  vacant id _ := vacant id
  bounded _ never := nomatch never
  counted := counted

theorem refl (t : SlotTable kind α) : Continues limit t t [] := of_same rfl (fun _ => id) id

/-- Making room issues nothing. -/
theorem withCapacity (t : SlotTable kind α) (capacity : Nat) :
    Continues limit t (t.withCapacity capacity) [] := of_same rfl (fun _ => id) id

/-- A new record gets the next handle. -/
theorem push (record : α) (room : t.next.value ≤ limit) :
    Continues limit t (t.push record) [t.next] where
  consecutive := rfl
  length := List.length_append
  vacant id given missing := by
    rw [get?_push, if_neg]
    · exact missing
    · rintro rfl
      exact absurd given (Nat.lt_irrefl _)
  bounded id member := by
    rw [List.mem_singleton.mp member]
    exact room
  counted h := counted_push h record

theorem modify (t : SlotTable kind α) (id : Handle kind) (change : α → α) :
    Continues limit t (t.modify id change) [] := by
  apply of_same
  · exact List.length_modify ..
  · intro other missing
    rw [get?_modify]
    split
    · rename_i same
      rw [← same, missing]
      rfl
    · exact missing
  · exact fun h => counted_modify h id change

/-- A record that is removed leaves its handle behind. -/
theorem take {id : Handle kind} {record : α} (taken : t.take id = some (record, t')) :
    Continues limit t t' [] := by
  apply of_same
  · exact length_slots_of_take taken
  · intro other missing
    rw [get?_of_take taken]
    split
    · rfl
    · exact missing
  · exact fun h => (counted_take h taken).2

theorem trans (first : Continues limit t t' issued) (later : Continues limit t' t'' more) :
    Continues limit t t'' (issued ++ more) where
  consecutive := by
    have second := later.consecutive
    rw [first.length] at second
    rw [List.length_append, ← List.range'_append_1, List.map_append, ← first.consecutive, ← second]
  length := by rw [later.length, first.length, List.length_append, Nat.add_assoc]
  vacant id given missing := by
    apply later.vacant id
    · exact Nat.lt_of_lt_of_le given (first.length ▸ Nat.le_add_right _ _)
    · exact first.vacant id given missing
  bounded id member := by
    rcases List.mem_append.mp member with earlier | last
    · exact first.bounded id earlier
    · exact later.bounded id last
  counted h := later.counted (first.counted h)

/-- A handle that was given out when it was issued stays given out. -/
theorem index_lt (continues : Continues limit t t' issued) {id : Handle kind}
    (given : id ∈ issued) :
    id.index < t'.slots.length := by
  rw [continues.consecutive] at given
  obtain ⟨i, inside, rfl⟩ := List.mem_map.mp given
  rw [Handle.index_ofIndex, continues.length]
  exact (List.mem_range'_1.mp inside).2

/-- From an empty table on the handles issued are 1, 2, 3 and so on, within the limit. -/
theorem values (continues : Continues limit t t' issued) (empty : t.slots = []) :
    ∃ count ≤ limit, issued.map (·.value) = List.range' 1 count := by
  have listed : issued.map (·.value) = List.range' 1 issued.length := by
    have consecutive := continues.consecutive
    rw [empty] at consecutive
    calc issued.map (·.value)
        = ((List.range' 0 issued.length).map (Handle.ofIndex : Nat → Handle kind)).map (·.value) :=
          congrArg (List.map (·.value)) consecutive
      _ = (List.range' 0 issued.length).map (1 + ·) := by
          rw [List.map_map]
          apply List.map_congr_left
          intro i _
          exact Nat.add_comm i 1
      _ = List.range' 1 issued.length := List.map_add_range' 0 issued.length 1
  refine ⟨issued.length, ?_, listed⟩
  rcases Nat.eq_zero_or_pos issued.length with none | some
  · exact none ▸ Nat.zero_le limit
  · have last : issued.length ∈ issued.map (·.value) := by
      rw [listed]
      exact List.mem_range'_1.mpr (by omega)
    obtain ⟨id, given, value⟩ := List.mem_map.mp last
    exact value ▸ continues.bounded id given

end Continues

end SlotTable

/-- Handles of threads were issued, and the limit is the same. -/
structure ThreadTable.Continues (t t' : ThreadTable) (issued : List ThreadId) : Prop where
  limit : t'.limit = t.limit
  records : SlotTable.Continues t.limit t.records t'.records issued

/-- Handles of mutexes were issued, and the limit is the same. -/
structure MutexTable.Continues (t t' : MutexTable) (issued : List MutexId) : Prop where
  limit : t'.limit = t.limit
  records : SlotTable.Continues t.limit t.records t'.records issued

theorem ThreadTable.Continues.trans {t t' t'' : ThreadTable} {issued more : List ThreadId}
    (first : t.Continues t' issued) (later : t'.Continues t'' more) :
    t.Continues t'' (issued ++ more) where
  limit := later.limit.trans first.limit
  records := first.records.trans (first.limit ▸ later.records)

theorem MutexTable.Continues.trans {t t' t'' : MutexTable} {issued more : List MutexId}
    (first : t.Continues t' issued) (later : t'.Continues t'' more) :
    t.Continues t'' (issued ++ more) where
  limit := later.limit.trans first.limit
  records := first.records.trans (first.limit ▸ later.records)

/-! ### Threads -/

namespace Kernel

variable {k k' admitted after : Kernel} {bootstrap id t : ThreadId} {entry : Nat}

theorem Keeps.continues (keeps : k.Keeps k') : k.threads.Continues k'.threads [] where
  limit := by
    have limits := congrArg ThreadTable.limit keeps.lasting
    exact limits
  records := by
    apply SlotTable.Continues.of_same keeps.mark
    · intro id missing
      have same := keeps.get? id
      rw [show k.threads.get? id = none from missing] at same
      exact Option.map_eq_none_iff.mp same
    · intro counted
      have live := congrArg (·.records.live) keeps.lasting
      have listed := congrArg List.length k'.threads.toList_fixed
      rw [keeps.retains.fixed, ← k.threads.toList_fixed] at listed
      simp only [List.length_map] at listed
      exact (live.trans counted).trans listed.symm

/-- A thread that is admitted gets the next handle. -/
theorem Admits.continues {spec : ThreadSpec} (admits : k.Admits spec id admitted) :
    k.threads.Continues admitted.threads [id] := by
  obtain ⟨rfl, _⟩ := admits.next
  obtain ⟨capacity, _, _, _, _, reserved, _, rfl⟩ := admits.granted
  exact ⟨rfl, (SlotTable.Continues.withCapacity _ capacity).trans
    (.push _ (ThreadTable.room_of_reserve reserved))⟩

/-- The bootstrap thread gets the next handle. -/
theorem continues_withBootstrap {timer : PeriodicTimer} {heap : Heap} {capacity : Nat}
    {bootStack : Option StackBounds}
    (reserved : k.threads.reserve k.heap = (.ok bootstrap, k.threads.withCapacity capacity, heap)) :
    k.threads.Continues
      (({ k with timer }.withRoom heap capacity).withBootstrap bootstrap bootStack).threads
      [bootstrap] := by
  obtain ⟨rfl, _⟩ := ThreadTable.get?_of_reserve reserved
  exact ⟨rfl, (SlotTable.Continues.withCapacity _ capacity).trans
    (.push _ (ThreadTable.room_of_reserve reserved))⟩

/-- Adopting processors forgets nobody. -/
theorem AdoptsCpus.isSome_get? {cpus : List Nat} (adopts : AdoptsCpus bootstrap entry cpus k after)
    (present : (k.threads.get? t).isSome) : (after.threads.get? t).isSome := by
  induction adopts with
  | nil k => exact present
  | @cons k admitted after idle cpu rest head tail ih =>
    apply ih
    obtain ⟨_, _, _, registers, _⟩ := head.registers
    have admitted_present : (admitted.threads.get? t).isSome := by
      rw [registers.threads]
      split
      · rfl
      · exact present
    have same := (Keeps.of_withIdle admitted bootstrap idle cpu).get? t
    rw [← Option.isSome_map, same, Option.isSome_map]
    exact admitted_present

/-- The idle threads get the next handles in the order of their processors. -/
theorem AdoptsCpus.continues {cpus : List Nat} (adopts : AdoptsCpus bootstrap entry cpus k after) :
    ∃ idles, k.threads.Continues after.threads idles ∧
      (cpus.Nodup → (∀ cpu ∈ cpus, cpu < k.cpus.length) →
        cpus.map after.idle? = idles.map some) := by
  induction adopts with
  | nil k => exact ⟨[], ⟨rfl, .refl _⟩, fun _ _ => rfl⟩
  | @cons k admitted after idle cpu rest head tail ih =>
    have cpus : admitted.cpus = k.cpus := by
      obtain ⟨_, _, _, _, _, _, _, rfl⟩ := head.registers
      rfl
    have length : (admitted.withIdle bootstrap idle cpu).cpus.length = k.cpus.length := by
      rw [← cpus]
      exact List.length_modify ..
    obtain ⟨idles, continues, owned⟩ := ih
    have begun := head.continues.trans (Keeps.of_withIdle admitted bootstrap idle cpu).continues
    refine ⟨idle :: idles, begun.trans continues, fun once inside => ?_⟩
    obtain ⟨fresh, distinct⟩ := List.nodup_cons.mp once
    obtain ⟨here, others⟩ := List.forall_mem_cons.mp inside
    rw [List.map_cons, List.map_cons,
      owned distinct fun other member => length ▸ others other member]
    congr 1
    -- The processors that are adopted later leave this one alone.
    have seated : (admitted.withIdle bootstrap idle cpu).cpus[cpu]? = some
        { k.cpus[cpu] with
          idle := some idle
          slice := admitted.config.quantum
          running := some (if cpu = 0 then bootstrap else idle) } := by
      simp [withIdle, cpus, here]
    obtain ⟨last, reached, _, kept⟩ := tail.slot seated
    rw [idle?, reached, kept fresh]
    rfl

/-- However far the beginning of scheduling comes, the next handles are issued. -/
theorem continues_partway {timer : PeriodicTimer} {bootStack : Option StackBounds}
    {partway : Kernel}
    (progress : k.Progresses timer entry bootStack partway) :
    ∃ issued, k.threads.Continues partway.threads issued := by
  cases progress with
  | none => exact ⟨[], rfl, .refl _⟩
  | @some _ _ adopted _ _ _ capacity reserved adopts =>
    obtain ⟨idles, continues, _⟩ := adopts.continues
    have roomy : adopted.threads.Continues (adopted.threads.withCapacity capacity) [] :=
      ⟨rfl, .withCapacity _ capacity⟩
    exact ⟨_, ((continues_withBootstrap reserved).trans continues).trans roomy⟩

theorem continues_reapThread (k : Kernel) (id : ThreadId) :
    k.threads.Continues (k.reapThread id).threads [] := by
  rw [threads_reapThread]
  cases removed : k.threads.remove id with
  | none => exact ⟨rfl, .refl _⟩
  | some removal =>
    obtain ⟨records, taken, same⟩ := ThreadTable.exists_take_of_remove removed
    rw [Option.elim_some, same]
    exact ⟨rfl, .take taken⟩

/-- Reaping issues nothing. -/
theorem continues_reapAll (ids : List ThreadId) (k : Kernel) :
    k.threads.Continues (ids.foldl reapThread k).threads [] := by
  induction ids generalizing k with
  | nil => exact ⟨rfl, .refl _⟩
  | cons id rest ih => exact (continues_reapThread k id).trans (ih _)

/-- The threads that own the processors, in the order of the processors. -/
theorem filterMap_idle {ids : List ThreadId}
    (owned : (List.range k.cpus.length).map k.idle? = ids.map some) :
    k.cpus.filterMap (·.idle) = ids := by
  have slots : (List.range k.cpus.length).map k.idle? = k.cpus.map (·.idle) := by
    apply List.ext_getElem
    · simp
    · intro i _ inside
      have here : i < k.cpus.length := by simpa using inside
      simp [idle?, here]
  calc k.cpus.filterMap (·.idle)
      = (k.cpus.map (·.idle)).filterMap id := by rw [List.filterMap_map]; rfl
    _ = (ids.map some).filterMap id := by rw [← slots, owned]
    _ = ids := by rw [List.filterMap_map]; exact List.filterMap_some

end Kernel

/-! ### Mutexes -/

namespace MutexTable.Continues

variable {t t' : MutexTable}

theorem refl (t : MutexTable) : t.Continues t [] := ⟨rfl, .refl _⟩

theorem replace (t : MutexTable) (id : MutexId) (mutex : Mutex) :
    t.Continues (t.replace id mutex) [] :=
  ⟨rfl, .modify _ _ _⟩

/-- A mutex that is registered gets the next handle. -/
theorem created {name : String} {id : MutexId} {heap heap' : Heap}
    (created : t.create heap name = (.ok id, t', heap')) : t.Continues t' [id] := by
  have creates := t.creates heap name
  rw [created] at creates
  cases creates with
  | created _ room => exact ⟨rfl, (SlotTable.Continues.withCapacity _ _).trans (.push _ room)⟩

theorem released {id : MutexId} (released : t.release id = .ok t') : t.Continues t' [] := by
  unfold MutexTable.release at released
  split at released
  · cases released
  · rename_i mutex records taken
    split at released
    · cases released
    · obtain rfl := Except.ok.inj released
      exact ⟨rfl, .take taken⟩

end MutexTable.Continues

namespace Kernel

variable {k : Kernel}

theorem continues_detached (k : Kernel) (thread : Thread) :
    k.mutexes.Continues (k.detached thread).mutexes [] := by
  unfold detached detach
  cases thread.state with
  | ready => cases k.ready.remove thread.id <;> exact .refl _
  | running => cases k.hostOf? thread.id <;> exact .refl _
  | sleeping => cases k.sleeping.remove thread.id <;> exact .refl _
  | terminated => exact .refl _
  | blocked =>
    cases thread.waitingOn with
    | none => exact .refl _
    | some id =>
      cases found : k.mutexes.get? id with
      | none => simpa [found] using .refl _
      | some mutex =>
        cases withdrawn : mutex.withdraw thread.id with
        | none => simpa [found, withdrawn] using .refl _
        | some removal => simpa [found, withdrawn] using .replace _ _ _

theorem continues_passOn (owner : ThreadId) (k : Kernel) (id : MutexId) :
    k.mutexes.Continues (k.passOn owner id).mutexes [] := by
  unfold passOn
  split
  · exact .refl _
  · rw [mutexes_makeReady]
    exact .replace _ _ _
  · exact .replace _ _ _

/-- The end of a thread issues nothing. -/
theorem continues_ended (k : Kernel) (thread : Thread) :
    k.mutexes.Continues (k.ended thread).mutexes [] := by
  have passed (ids : List MutexId) (k : Kernel) :
      k.mutexes.Continues (ids.foldl (passOn thread.id) k).mutexes [] := by
    induction ids generalizing k with
    | nil => exact .refl _
    | cons id rest ih => exact (continues_passOn thread.id k id).trans (ih _)
  exact (continues_detached k thread).trans (passed _ _)

end Kernel

/-! ### Operations -/

/-- The handles of threads that an operation hands out: those of the bootstrap thread and of the
idle threads, in the order of their processors, or that of the thread created. -/
def Moment.threadsIssued (x : Moment) : List ThreadId :=
  match x.operation, x.result with
  | .init _ _, .ok (.threadId bootstrap) => bootstrap :: x.after.cpus.filterMap (·.idle)
  | .spawn _, .ok (.threadId id) => [id]
  | _, _ => []

/-- The handles of mutexes that an operation hands out. -/
def Moment.mutexesIssued (x : Moment) : List MutexId :=
  match x.operation, x.result with
  | .createMutex _, .ok (.mutexId id) => [id]
  | _, _ => []

namespace Moment

variable {x : Moment} {course : Course}

/-- An operation that keeps the records hands out no handle of a thread. -/
theorem threadsIssued_eq_nil
    (keeps : x.operation.AltersRecords → ∃ error, x.result = .error error) :
    x.threadsIssued = [] := by
  obtain ⟨k, here, operation, result, after⟩ := x
  cases operation with
  | init | spawn =>
    obtain ⟨error, rfl⟩ := keeps trivial
    rfl
  | _ => rfl

/-- An operation that has nothing to answer hands out no handle of a mutex. -/
theorem mutexesIssued_of_done (done : x.result = .ok .done) : x.mutexesIssued = [] := by
  obtain ⟨k, here, operation, result, after⟩ := x
  obtain rfl : result = .ok .done := done
  cases operation <;> rfl

theorem Takes.threads_continue (h : x.Takes course) :
    x.before.threads.Continues x.after.threads x.threadsIssued := by
  have changes := h.transition.keeps_or_alters
  have regular := h.regular
  have regular' := h.regular_after
  rw [← h.after] at changes
  rcases changes with ⟨keeps, refused⟩ | ⟨address, id, asked, _, _, same⟩ | recordsChange
  · rw [threadsIssued_eq_nil refused]
    exact keeps.continues
  · have none : x.threadsIssued = [] := by simp [threadsIssued, asked]
    rw [none, same]
    exact ⟨rfl, .modify _ _ _⟩
  · obtain ⟨k, here, operation, result, after⟩ := x
    dsimp only at recordsChange regular regular' ⊢
    cases recordsChange with
    | @booted entry bootStack timer bootstrap after heap capacity fresh reserved adopted =>
      have inside : ∀ cpu ∈ List.range k.config.cpus, cpu < k.cpus.length := by
        intro cpu member
        rw [regular.orderly.length]
        exact List.mem_range.mp member
      obtain ⟨idles, continues, owned⟩ := adopted.continues
      have length : after.cpus.length = k.config.cpus :=
        adopted.length.trans regular.orderly.length
      have all : after.cpus.filterMap (·.idle) = idles := by
        apply Kernel.filterMap_idle
        rw [length]
        exact owned List.nodup_range inside
      change k.threads.Continues after.threads (bootstrap :: after.cpus.filterMap (·.idle))
      rw [all]
      exact (Kernel.continues_withBootstrap reserved).trans continues
    | @discarded entry bootStack timer partway error fresh progress =>
      have blank := regular.orderly.blank fresh
      obtain ⟨issued, continues⟩ := Kernel.continues_partway progress
      refine ⟨continues.limit, .of_same ?_ (fun id _ => ?_) fun counted => ?_⟩
      · rw [blank.unused, blank.mark]
        rfl
      · rw [blank.mark]
        rfl
      · exact (SlotTable.counted_truncate (continues.records.counted counted) _).2
    | spawned admits =>
      rw [Kernel.threads_enqueueReady]
      exact admits.continues
    | reaped =>
      exact Kernel.continues_reapAll _ { k with terminated := k.terminated.filter k.isReferenced }

/-- Handles that were given out stay given out. -/
theorem Takes.mark_le (h : x.Takes course) : x.before.threads.mark ≤ x.after.threads.mark := by
  unfold ThreadTable.mark
  rw [h.threads_continue.records.length]
  exact Nat.le_add_right _ _

theorem Takes.mutexes_continue (h : x.Takes course) :
    x.before.mutexes.Continues x.after.mutexes x.mutexesIssued := by
  rw [h.mutexes]
  obtain ⟨k, here, operation, result, after⟩ := x
  obtain ⟨_, transition, _⟩ := h
  dsimp only at transition ⊢
  cases transition with
  | mutexCreated created => exact .created created
  | mutexReleased released => exact .released released
  | locked | unlocked | blocked => exact .replace _ _ _
  | handedOff =>
    rw [Course.moved, Kernel.mutexes_makeReady]
    exact .replace _ _ _
  -- Nothing is issued when the mutexes of a thread that ends are passed on.
  | endedElsewhere | endedHere =>
    rw [mutexesIssued_of_done rfl]
    exact Kernel.continues_ended k _
  | refused | denied =>
    cases operation <;> exact .refl _
  | answered _ _ inquiry =>
    cases operation with
    | createMutex => exact inquiry.elim
    | _ => exact .refl _
  | stayedAwake | fellAsleep =>
    rw [mutexesIssued_of_done rfl]
    exact .refl _
  | yielded =>
    rw [Course.moved, Kernel.mutexes_makeReady]
    exact .refl _
  | preempted =>
    rw [Course.moved, Kernel.mutexes_makeReady, Kernel.mutexes_beforeCharge]
    exact .refl _
  | replaced | kept =>
    rw [Course.moved, Kernel.mutexes_beforeCharge]
    exact .refl _
  | booted _ _ _ adopted | idleRefused _ _ _ _ adopted =>
    obtain ⟨_, _, _, _, rfl⟩ := adopted.frame
    exact .refl _
  | spawned _ admits =>
    obtain ⟨_, _, _, _, _, _, _, rfl⟩ := admits.registers
    rw [Course.moved, Kernel.mutexes_enqueueReady]
    exact .refl _
  | reaped =>
    rw [Course.moved, Kernel.mutexes_reaped]
    exact .refl _
  | _ => exact .refl _

/-- A thread has a record when its handle is handed out. -/
theorem Takes.isSome_of_threadsIssued (h : x.Takes course) {t : ThreadId}
    (given : t ∈ x.threadsIssued) : (x.after.threads.get? t).isSome := by
  have changes := h.transition.keeps_or_alters
  have regular := h.regular_after
  rw [← h.after] at changes
  rcases changes with ⟨_, refused⟩ | ⟨address, id, asked, _, _, _⟩ | recordsChange
  · rw [threadsIssued_eq_nil refused] at given
    cases given
  · simp [threadsIssued, asked] at given
  · obtain ⟨k, here, operation, result, after⟩ := x
    dsimp only at recordsChange regular ⊢
    cases recordsChange with
    | @booted entry bootStack timer bootstrap after heap capacity fresh reserved adopted =>
      change t ∈ bootstrap :: after.cpus.filterMap (·.idle) at given
      rcases List.mem_cons.mp given with rfl | owner
      · obtain ⟨next, _⟩ := ThreadTable.get?_of_reserve reserved
        have found := (k.threads.withCapacity capacity).get?_push
          (k.bootstrapThread t bootStack) t
        exact adopted.isSome_get? (Option.isSome_of_eq_some (found.trans (if_pos next)))
      · obtain ⟨slot, member, owned⟩ := List.mem_filterMap.mp owner
        obtain ⟨cpu, found⟩ := List.mem_iff_getElem?.mp member
        have owns : after.idle? cpu = some t := by
          rw [Kernel.idle?, found]
          exact owned
        exact regular.isSome_of_idle owns
    | discarded => cases given
    | spawned admits =>
      obtain rfl := List.mem_singleton.mp given
      obtain ⟨_, _, _, registers, _⟩ := admits.registers
      rw [Kernel.threads_enqueueReady, registers.found]
      rfl
    | reaped => cases given

/-- A mutex is found when its handle is handed out. -/
theorem Takes.isSome_of_mutexesIssued (h : x.Takes course) {id : MutexId}
    (given : id ∈ x.mutexesIssued) : (x.after.mutexes.get? id).isSome := by
  rw [h.mutexes]
  obtain ⟨k, here, operation, result, after⟩ := x
  obtain ⟨_, transition, _⟩ := h
  dsimp only at transition ⊢
  cases operation with
  | createMutex name =>
    cases transition with
    | mutexCreated created =>
      obtain rfl := List.mem_singleton.mp given
      obtain ⟨_, mutex, _, _, stored⟩ := MutexTable.get?_of_create created
      rw [Course.moved, stored, if_pos rfl]
      rfl
    | refused | denied => cases given
    | answered _ _ inquiry => exact inquiry.elim
    | stayedAwake _ asked | fellAsleep _ _ asked => cases asked
    | endedElsewhere _ asked | endedHere _ asked => exact asked.elim
  | _ => cases given

end Moment

/-! ### Runs -/

namespace Machine

variable {m : Machine} {cpu : Nat} {t : ThreadId} {id : MutexId}

/-- Whatever is requested, the threads that get handles get the next ones. -/
theorem threads_continue_run (reached : m.kernel.Reachable) (requests : List Request) :
    m.kernel.threads.Continues (m.run requests).kernel.threads
      ((m.history requests).flatMap Moment.threadsIssued) := by
  induction requests generalizing m with
  | nil => exact ⟨rfl, .refl _⟩
  | cons request rest ih =>
    obtain ⟨course, takes⟩ := exists_course reached request
    exact takes.threads_continue.trans (ih (reached.step request.cpu request.operation))

/-- Whatever is requested, the mutexes that get handles get the next ones. -/
theorem mutexes_continue_run (reached : m.kernel.Reachable) (requests : List Request) :
    m.kernel.mutexes.Continues (m.run requests).kernel.mutexes
      ((m.history requests).flatMap Moment.mutexesIssued) := by
  induction requests generalizing m with
  | nil => exact .refl _
  | cons request rest ih =>
    obtain ⟨course, takes⟩ := exists_course reached request
    exact takes.mutexes_continue.trans (ih (reached.step request.cpu request.operation))

/-! ### Handles that name nothing -/

theorem threadInfo_of_missing (missing : m.kernel.threads.get? t = none) :
    (m.execute cpu (.threadInfo t)).result = .error (.thread (.notFound t.value)) := by
  apply execute_of_ensures fun result _ => result = .error (.thread (.notFound t.value))
  unfold Operation.perform Call.threadInfo
  simp [Call.ensures_map, missing]

theorem terminate_of_missing (begun : m.kernel.initialized = true)
    (missing : m.kernel.threads.get? t = none) :
    (m.execute cpu (.terminate t)).result = .error (.thread (.notFound t.value)) := by
  apply (result_eq_error_iff _ _).mpr
  · simp [Kernel.refusal?, Kernel.victimRefusal?, begun, missing]
  · exact trivial

theorem findMutex_of_missing (missing : m.kernel.mutexes.get? id = none) :
    (m.execute cpu (.findMutex id)).result = .error (.mutex (.notFound id.value)) := by
  apply execute_of_ensures fun result _ => result = .error (.mutex (.notFound id.value))
  unfold Operation.perform Call.findMutex
  simp [missing]

theorem releaseMutex_of_missing (missing : m.kernel.mutexes.get? id = none) :
    (m.execute cpu (.releaseMutex id)).result = .error (.mutex (.notFound id.value)) := by
  apply execute_of_ensures fun result _ => result = .error (.mutex (.notFound id.value))
  have refused : m.kernel.mutexes.release id = .error (.notFound id.value) := by
    unfold MutexTable.release
    rw [SlotTable.take_eq_none_iff.mpr missing]
  unfold Operation.perform Call.releaseMutex
  simp [refused, Call.answer]

/-- A thread that calls may not lock or unlock a mutex that is not there. -/
theorem lock_unlock_of_missing (begun : m.kernel.initialized = true)
    (caller : m.kernel.caller cpu = .ok t) (missing : m.kernel.mutexes.get? id = none) :
    (m.execute cpu (.lock id)).result = .error (.mutex (.notFound id.value)) ∧
      (m.execute cpu (.unlock id)).result = .error (.mutex (.notFound id.value)) := by
  have refused : m.kernel.callerRefusal? cpu = none ∧
      m.kernel.mutexRefusal? id = some (.mutex (.notFound id.value)) :=
    ⟨Kernel.callerRefusal?_of_caller caller, by simp [Kernel.mutexRefusal?, missing]⟩
  constructor
  · apply (result_eq_error_iff _ _).mpr
    · simp [Kernel.refusal?, refused, begun]
    · exact trivial
  · apply (result_eq_error_iff _ _).mpr
    · simp [Kernel.refusal?, refused, begun]
    · exact trivial

/-- A handle of a thread names nothing, and the kernel says so. -/
structure DeniesThread (m : Machine) (t : ThreadId) : Prop where
  missing : m.kernel.threads.get? t = none
  threadInfo : ∀ cpu, (m.execute cpu (.threadInfo t)).result = .error (.thread (.notFound t.value))
  terminate : ∀ cpu, (m.execute cpu (.terminate t)).result = .error (.thread (.notFound t.value))

/-- A handle of a mutex names nothing, and the kernel says so. -/
structure DeniesMutex (m : Machine) (id : MutexId) : Prop where
  missing : m.kernel.mutexes.get? id = none
  findMutex : ∀ cpu, (m.execute cpu (.findMutex id)).result = .error (.mutex (.notFound id.value))
  releaseMutex : ∀ cpu,
    (m.execute cpu (.releaseMutex id)).result = .error (.mutex (.notFound id.value))
  lock : ∀ cpu t, m.kernel.caller cpu = .ok t →
    (m.execute cpu (.lock id)).result = .error (.mutex (.notFound id.value))
  unlock : ∀ cpu t, m.kernel.caller cpu = .ok t →
    (m.execute cpu (.unlock id)).result = .error (.mutex (.notFound id.value))

/-- Handles are handed out in order and once, to records that are there. A handle that has lost its
record never gets another one. -/
structure IssuesOnce (m : Machine) (requests : List Request) : Prop where
  threads : ∃ count ≤ m.kernel.config.maxThreads,
    ((m.history requests).flatMap Moment.threadsIssued).map (·.value) = List.range' 1 count
  mutexes : ∃ count ≤ m.kernel.config.maxMutexes,
    ((m.history requests).flatMap Moment.mutexesIssued).map (·.value) = List.range' 1 count
  named : ∀ x ∈ m.history requests,
    (∀ t ∈ x.threadsIssued, (x.after.threads.get? t).isSome) ∧
      ∀ id ∈ x.mutexesIssued, (x.after.mutexes.get? id).isSome
  reaped : ∀ t ∈ (m.history requests).flatMap Moment.threadsIssued,
    (m.run requests).kernel.threads.get? t = none →
      ∀ later, ((m.run requests).run later).DeniesThread t
  released : ∀ id ∈ (m.history requests).flatMap Moment.mutexesIssued,
    (m.run requests).kernel.mutexes.get? id = none →
      ∀ later, ((m.run requests).run later).DeniesMutex id

/-- A processor on whose behalf a thread calls belongs to a kernel that schedules. -/
theorem begun_of_caller (reached : m.kernel.Reachable) (caller : m.kernel.caller cpu = .ok t) :
    m.kernel.initialized = true := by
  obtain ⟨runs, _, _⟩ := Kernel.caller_eq_ok_iff.mp caller
  exact reached.regular.begun_of_known (reached.regular.isSome_of_running runs)

theorem deniesThread (reached : m.kernel.Reachable) (given : t.index < m.kernel.threads.mark)
    (missing : m.kernel.threads.get? t = none) : m.DeniesThread t where
  missing := missing
  threadInfo _ := threadInfo_of_missing missing
  terminate _ := by
    apply terminate_of_missing _ missing
    cases begun : m.kernel.initialized with
    | true => rfl
    | false =>
      rw [(reached.regular.orderly.blank begun).mark] at given
      exact absurd given (Nat.not_lt_zero _)

theorem deniesMutex (reached : m.kernel.Reachable) (missing : m.kernel.mutexes.get? id = none) :
    m.DeniesMutex id where
  missing := missing
  findMutex _ := findMutex_of_missing missing
  releaseMutex _ := releaseMutex_of_missing missing
  lock _ _ caller := (lock_unlock_of_missing (begun_of_caller reached caller) caller missing).1
  unlock _ _ caller := (lock_unlock_of_missing (begun_of_caller reached caller) caller missing).2

/-- In every run of a new kernel handles are issued once. -/
theorem issuesOnce {config : Config} {timer : PeriodicTimer} {heap : Heap}
    (made : Kernel.ofConfig config timer heap = .ok m.kernel) (requests : List Request) :
    m.IssuesOnce requests := by
  have reached : m.kernel.Reachable := .new made
  have threads := threads_continue_run reached requests
  have mutexes := mutexes_continue_run reached requests
  obtain ⟨_, same⟩ := Kernel.eq_of_ofConfig made
  have still := reached.run requests
  constructor
  · rw [show m.kernel.config.maxThreads = m.kernel.threads.limit by rw [same]]
    exact threads.records.values (by rw [same])
  · rw [show m.kernel.config.maxMutexes = m.kernel.mutexes.limit by rw [same]]
    exact mutexes.records.values (by rw [same])
  · intro x member
    obtain ⟨past, request, _, _, rfl⟩ := exists_run_of_mem_history member
    obtain ⟨course, takes⟩ := exists_course (reached.run past) request
    exact ⟨fun t => takes.isSome_of_threadsIssued, fun id => takes.isSome_of_mutexesIssued⟩
  · intro t issued missing later
    have given := threads.records.index_lt issued
    have continues := (threads_continue_run still later).records
    have kept : t.index < ((m.run requests).run later).kernel.threads.mark := by
      change t.index < ((m.run requests).run later).kernel.threads.records.slots.length
      rw [continues.length]
      exact Nat.lt_add_right _ given
    exact deniesThread (still.run later) kept (continues.vacant t given missing)
  · intro id issued missing later
    have given := mutexes.records.index_lt issued
    have continues := (mutexes_continue_run still later).records
    exact deniesMutex (still.run later) (continues.vacant id given missing)

end Machine

/-- A run in which scheduling begins at the second attempt, and in which a thread is reaped and a
mutex released before others are made. -/
def renewal : List Request :=
  [⟨0, .startTimer 1000 ⟨1000000⟩⟩, ⟨0, .init 16 none⟩, ⟨0, .stopTimer⟩, ⟨0, .init 16 none⟩,
    ⟨0, .spawn { entry := 32, name := "first" }⟩, ⟨0, .createMutex "first"⟩,
    ⟨0, .terminate (.ofIndex 3)⟩, ⟨0, .reap⟩, ⟨0, .releaseMutex (.ofIndex 0)⟩,
    ⟨0, .spawn { entry := 32, name := "second" }⟩, ⟨0, .createMutex "second"⟩]

/-- Thread 4 and mutex 1 are gone, and thread 5 and mutex 2 follow them. -/
theorem Machine.issuesOnce_of_renewal :
    ((twoProcessors.history renewal).flatMap Moment.threadsIssued).map (·.value) = [1, 2, 3, 4, 5] ∧
      ((twoProcessors.history renewal).flatMap Moment.mutexesIssued).map (·.value) = [1, 2] ∧
      (twoProcessors.run renewal).kernel.threads.get? (.ofIndex 3) = none ∧
      (twoProcessors.run renewal).kernel.mutexes.get? (.ofIndex 0) = none ∧
      twoProcessors.IssuesOnce renewal := by
  have issued :
      ((twoProcessors.history renewal).flatMap Moment.threadsIssued).map (·.value) =
          [1, 2, 3, 4, 5] ∧
        ((twoProcessors.history renewal).flatMap Moment.mutexesIssued).map (·.value) = [1, 2] ∧
        (twoProcessors.run renewal).kernel.threads.get? (.ofIndex 3) = none ∧
        (twoProcessors.run renewal).kernel.mutexes.get? (.ofIndex 0) = none := by
    decide +kernel
  obtain ⟨threads, mutexes, reaped, released⟩ := issued
  exact ⟨threads, mutexes, reaped, released, issuesOnce twoProcessors_made renewal⟩

end ThreadScheduler
