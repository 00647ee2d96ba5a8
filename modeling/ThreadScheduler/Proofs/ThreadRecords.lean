/-
Module: ThreadScheduler.Proofs.ThreadRecords
Purpose: The table of threads under everything that can be asked of it. The slot of a handle is
  empty or holds the thread with this handle, and the threads are counted right. A handle is given
  to one thread until it is taken back; then the threads beyond the mark are handed back, and their
  handles are given again.
Main exports: ThreadTable.Edit, ThreadTable.Action, ThreadTable.perform,
  ThreadTable.Exchange.Effect, ThreadTable.effect, ThreadTable.KeepsRecords,
  ThreadTable.keepsRecords
-/
import ThreadScheduler.Proofs.Exchanges
import ThreadScheduler.Proofs.Slots

namespace ThreadScheduler.ThreadTable

/-- What can be done to a record in its slot. -/
inductive Edit where
  | setState (state : ThreadState)
  | setWaitingOn (mutex : Option MutexId)
  | setTls (address : Nat)
  | setUserStack (bounds : Option StackBounds)
  | adoptStack (bounds : StackBounds)
  /-- A stack is attached, together with the context in which the thread starts on it. -/
  | attachStack (stack : Stack) (context : ExecutionContext)
  | takeStack
  /-- A switch away from the thread saves where it goes on. -/
  | saveContext (context : ExecutionContext)
  /-- A whole record is written over the one in the slot. -/
  | overwrite (thread : Thread)
  deriving DecidableEq, Repr

/-- The record after an edit. -/
def Edit.apply (old : Thread) : Edit → Thread
  | .setState state => { old with state }
  | .setWaitingOn mutex => { old with waitingOn := mutex }
  | .setTls address => { old with tls := address }
  | .setUserStack bounds => { old with userStack := bounds }
  | .adoptStack bounds => { old with adoptedStack := some bounds }
  | .attachStack stack context => { old with context, pooledStack := some stack }
  | .takeStack => { old with pooledStack := none }
  | .saveContext context => { old with context }
  | .overwrite thread => thread

/-- The record of another thread is written into the slot of a handle. -/
def Edit.Misplaces (id : ThreadId) (edit : Edit) : Prop :=
  ∃ thread : Thread, edit = .overwrite thread ∧ thread.id ≠ id

/-- A thread has its handle for its whole life: no edit changes it, short of writing the record of
another thread over it. -/
theorem Edit.id_apply {edit : Edit} {old : Thread} {id : ThreadId} (placed : ¬ edit.Misplaces id)
    (named : old.id = id) : (edit.apply old).id = id := by
  cases edit with
  | overwrite thread => exact Decidable.byContradiction fun other => placed ⟨thread, rfl, other⟩
  | _ => exact named

/-- What is asked of the table. -/
inductive Action where
  /-- Room is made for a thread, with what the host has left by then. -/
  | reserve (heap : Heap)
  | insert (thread : Thread)
  | edit (id : ThreadId) (edit : Edit)
  | remove (id : ThreadId)
  | rollback (mark : Nat)
  deriving DecidableEq, Repr

/-- What is heard back. -/
inductive Answer where
  | reserved (id : ThreadId)
  /-- There is no room for another thread. -/
  | refused (error : SpawnError)
  | stored (id : ThreadId)
  /-- The thread has another handle than the next one, or no room was made for it, and it is handed
  back. -/
  | rejected (thread : Thread)
  /-- Whether there was a thread to be changed. -/
  | edited (present : Bool)
  | removed (thread : Option Thread)
  | withdrawn (threads : List Thread)
  deriving DecidableEq, Repr

/-- Asks something of the table. -/
def perform (t : ThreadTable) : Action → Answer × ThreadTable
  | .reserve heap =>
      match t.reserve heap with
      | (.ok id, roomy, _) => (.reserved id, roomy)
      | (.error error, same, _) => (.refused error, same)
  | .insert thread =>
      match t.insert thread with
      | some stored => (.stored thread.id, stored)
      | none => (.rejected thread, t)
  | .edit id edit => (.edited (t.contains id), t.modify id edit.apply)
  | .remove id =>
      match t.remove id with
      | some (thread, rest) => (.removed (some thread), rest)
      | none => (.removed none, t)
  | .rollback mark => (.withdrawn (t.rollback mark).1, (t.rollback mark).2)

/-- Something that is asked of the table. -/
abbrev Exchange := ThreadScheduler.Exchange ThreadTable Action Answer

/-- Something is asked of the table. -/
def exchange (t : ThreadTable) (action : Action) : Exchange := .of perform t action

/-- The table after several actions. -/
def after (t : ThreadTable) (actions : List Action) : ThreadTable :=
  Exchange.stateAfter perform t actions

/-- All that is asked of the table, the first exchange first. -/
def exchanges (t : ThreadTable) (actions : List Action) : List Exchange :=
  Exchange.record perform t actions

/-- The record of another thread was once written into the slot of a handle. -/
def MisplacedIn (history : List Exchange) (id : ThreadId) : Prop :=
  ∃ d ∈ history, ∃ edit : Edit, d.action = .edit id edit ∧ edit.Misplaces id

/-- What can come of it when something is asked of a table of threads. -/
inductive Exchange.Effect (d : Exchange) : Prop where
  | reserved {heap : Heap} (action : d.action = .reserve heap)
      (room : d.before.mark + 1 ≤ d.before.limit)
      (granted : d.before.mark < d.before.records.capacity ∨ heap.request.1 ≠ none)
      (answer : d.answer = .reserved (.ofIndex d.before.mark))
      (after : ∃ capacity, d.before.mark < capacity ∧ d.after = d.before.withCapacity capacity)
  | full {heap : Heap} (action : d.action = .reserve heap)
      (full : d.before.limit < d.before.mark + 1)
      (answer : d.answer = .refused .tooManyThreads) (after : d.after = d.before)
  /-- The last slot is in use, and the host has no memory for another one. -/
  | denied {heap : Heap} (action : d.action = .reserve heap)
      (room : d.before.mark + 1 ≤ d.before.limit)
      (crowded : d.before.records.capacity ≤ d.before.mark) (refusal : heap.request.1 = none)
      (answer : d.answer = .refused .outOfMemory) (after : d.after = d.before)
  | stored {thread : Thread} (action : d.action = .insert thread)
      (next : thread.id = .ofIndex d.before.mark)
      (spare : d.before.mark ≠ d.before.records.capacity) (answer : d.answer = .stored thread.id)
      (lookup : ∀ id, d.after.get? id = if id = thread.id then some thread else d.before.get? id)
      (length : d.after.length = d.before.length + 1) (mark : d.after.mark = d.before.mark + 1)
  | rejected {thread : Thread} (action : d.action = .insert thread)
      (cause : thread.id ≠ .ofIndex d.before.mark ∨ d.before.mark = d.before.records.capacity)
      (answer : d.answer = .rejected thread) (after : d.after = d.before)
  | edited {id : ThreadId} {edit : Edit} {thread : Thread} (action : d.action = .edit id edit)
      (found : d.before.get? id = some thread) (answer : d.answer = .edited true)
      (lookup : ∀ other, d.after.get? other =
        if other = id then some (edit.apply thread) else d.before.get? other)
      (length : d.after.length = d.before.length) (mark : d.after.mark = d.before.mark)
  | removed {id : ThreadId} {thread : Thread} (action : d.action = .remove id)
      (found : d.before.get? id = some thread) (answer : d.answer = .removed (some thread))
      (lookup : ∀ other, d.after.get? other = if other = id then none else d.before.get? other)
      (length : d.after.length + 1 = d.before.length) (mark : d.after.mark = d.before.mark)
  /-- The handle that something is asked about names no thread. -/
  | missed {id : ThreadId} (missing : d.before.get? id = none)
      (answer : (∃ edit, d.action = .edit id edit) ∧ d.answer = .edited false ∨
        d.action = .remove id ∧ d.answer = .removed none)
      (after : d.after = d.before)
  /-- The threads beyond the mark are handed back in the order of their slots, and only they. -/
  | withdrawn {mark : Nat} {threads : List Thread} (action : d.action = .rollback mark)
      (answer : d.answer = .withdrawn threads)
      (listed : threads = (d.before.records.slots.drop mark).filterMap id)
      (exactly : ∀ thread, thread ∈ threads ↔
        ∃ id, mark < id.value ∧ d.before.get? id = some thread)
      (ascending : (∀ id thread, d.before.get? id = some thread → thread.id = id) →
        (threads.map (·.id)).Pairwise fun a b => a.value < b.value)
      (lookup : ∀ id, d.after.get? id = if id.value ≤ mark then d.before.get? id else none)
      (length : d.after.length + threads.length = d.before.length)
      (mark : d.after.mark = min mark d.before.mark)

variable {t : ThreadTable} {d : Exchange}

/-! ### One exchange -/

theorem effect_reserve (t : ThreadTable) (heap : Heap) : (t.exchange (.reserve heap)).Effect := by
  have reserves := t.reserves heap
  have performed : t.perform (.reserve heap) =
      match t.reserve heap with
      | (.ok id, roomy, _) => (.reserved id, roomy)
      | (.error error, same, _) => (.refused error, same) := rfl
  generalize t.reserve heap = outcome at reserves performed
  cases reserves with
  | full full =>
    rw [exchange, Exchange.of_eq performed]
    exact .full rfl full rfl rfl
  | denied room crowded answer =>
    rw [exchange, Exchange.of_eq performed]
    exact .denied rfl room crowded (congrArg Prod.fst answer) rfl rfl
  | reserved room spare _ granted =>
    rw [exchange, Exchange.of_eq performed]
    exact .reserved rfl room granted rfl ⟨_, spare, rfl⟩

theorem exchange_insert_of_some {thread : Thread} {stored : ThreadTable}
    (inserted : t.insert thread = some stored) :
    t.exchange (.insert thread) = ⟨t, .insert thread, .stored thread.id, stored⟩ :=
  Exchange.of_eq (by simp [perform, inserted])

theorem exchange_insert_of_none {thread : Thread} (inserted : t.insert thread = none) :
    t.exchange (.insert thread) = ⟨t, .insert thread, .rejected thread, t⟩ :=
  Exchange.of_eq (by simp [perform, inserted])

theorem exchange_remove_of_some {id : ThreadId} {thread : Thread} {rest : ThreadTable}
    (removed : t.remove id = some (thread, rest)) :
    t.exchange (.remove id) = ⟨t, .remove id, .removed (some thread), rest⟩ :=
  Exchange.of_eq (by simp [perform, removed])

theorem exchange_remove_of_none {id : ThreadId} (removed : t.remove id = none) :
    t.exchange (.remove id) = ⟨t, .remove id, .removed none, t⟩ :=
  Exchange.of_eq (by simp [perform, removed])

theorem effect_insert (t : ThreadTable) (thread : Thread) :
    (t.exchange (.insert thread)).Effect := by
  by_cases cause : thread.id ≠ .ofIndex t.mark ∨ t.mark = t.records.capacity
  · rw [exchange_insert_of_none (if_pos cause)]
    exact .rejected rfl cause rfl rfl
  · have inserted : t.insert thread = some { t with records := t.records.push thread } :=
      if_neg cause
    obtain ⟨next, spare⟩ := not_or.mp cause
    replace next := Decidable.not_not.mp next
    rw [exchange_insert_of_some inserted]
    refine .stored rfl next spare rfl (fun id => ?_) rfl List.length_append
    rw [next]
    exact t.get?_push thread id

theorem effect_edit (t : ThreadTable) (id : ThreadId) (edit : Edit) :
    (t.exchange (.edit id edit)).Effect := by
  have answer : (t.exchange (.edit id edit)).answer = .edited (t.get? id).isSome := rfl
  cases found : t.get? id with
  | none =>
    have same : t.modify id edit.apply = t := by
      rw [modify, SlotTable.modify_of_missing found]
    rw [found] at answer
    exact .missed found (.inl ⟨⟨edit, rfl⟩, answer⟩) same
  | some thread =>
    rw [found] at answer
    refine .edited rfl found answer (fun other => ?_) rfl (List.length_modify ..)
    have lookup := t.get?_modify id other edit.apply
    rwa [found] at lookup

theorem effect_remove (counted : t.records.Counted) (id : ThreadId) :
    (t.exchange (.remove id)).Effect := by
  cases removed : t.remove id with
  | none =>
    rw [exchange_remove_of_none removed]
    exact .missed (remove_eq_none_iff.mp removed) (.inr ⟨rfl, rfl⟩) rfl
  | some taken =>
    obtain ⟨thread, rest⟩ := taken
    rw [exchange_remove_of_some removed]
    obtain ⟨records, taken, rfl⟩ := exists_take_of_remove removed
    exact .removed rfl (SlotTable.eq_of_take taken).1 rfl (get?_of_remove removed)
      (SlotTable.live_of_take counted taken) (SlotTable.length_slots_of_take taken)

theorem effect_rollback (counted : t.records.Counted) (mark : Nat) :
    (t.exchange (.rollback mark)).Effect :=
  .withdrawn rfl rfl rfl (fun _ => SlotTable.mem_truncate_iff)
    (fun named => SlotTable.Sound.ascending_truncate ⟨named, counted⟩ mark)
    (t.records.get?_truncate mark) (SlotTable.live_truncate counted mark)
    (t.records.length_slots_truncate mark)

/-- Whatever is asked of a table that counts its threads right, it has one of these effects. -/
theorem effect (counted : t.records.Counted) (action : Action) : (t.exchange action).Effect := by
  cases action with
  | reserve heap => exact t.effect_reserve heap
  | insert thread => exact t.effect_insert thread
  | edit id edit => exact t.effect_edit id edit
  | remove id => exact effect_remove counted id
  | rollback mark => exact effect_rollback counted mark

/-! ### All exchanges -/

/-- A thread that is found under a handle has this handle, unless the record of another one was
written there. -/
theorem Exchange.Effect.named {history : List Exchange} (effect : d.Effect)
    (earlier : ∀ id thread, d.before.get? id = some thread →
      thread.id = id ∨ MisplacedIn history id)
    (id : ThreadId) (thread : Thread) (found : d.after.get? id = some thread) :
    thread.id = id ∨ MisplacedIn (history ++ [d]) id := by
  have kept {thread : Thread} (found : d.before.get? id = some thread) :
      thread.id = id ∨ MisplacedIn (history ++ [d]) id :=
    (earlier id thread found).imp_right fun ⟨x, member, misplaced⟩ =>
      ⟨x, List.mem_append_left _ member, misplaced⟩
  cases effect with
  | full _ _ _ after | denied _ _ _ _ _ after | rejected _ _ _ after | missed _ _ after =>
    exact kept (after ▸ found)
  | reserved _ _ _ _ after =>
    obtain ⟨_, _, same⟩ := after
    rw [same] at found
    exact kept found
  -- A record is stored under the handle that it names.
  | stored _ _ _ _ lookup =>
    rw [lookup] at found
    split at found
    · rename_i same
      obtain rfl := Option.some.inj found
      exact .inl same.symm
    · exact kept found
  | @edited edited edit old action present _ lookup =>
    rw [lookup] at found
    split at found
    · rename_i same
      subst same
      obtain rfl := Option.some.inj found
      by_cases misplaces : edit.Misplaces id
      · exact .inr ⟨d, by simp, edit, action, misplaces⟩
      · exact (kept present).imp_left (Edit.id_apply misplaces)
    · exact kept found
  | removed _ _ _ lookup =>
    rw [lookup] at found
    split at found
    · cases found
    · exact kept found
  | withdrawn _ _ _ _ _ lookup =>
    rw [lookup] at found
    split at found
    · exact kept found
    · cases found

/-- A table of threads with a limit, and what became of its records. -/
structure Records (limit : Nat) (history : List Exchange) (t : ThreadTable) : Prop where
  counted : t.records.Counted
  limited : t.limit = limit
  named : ∀ id thread, t.get? id = some thread → thread.id = id ∨ MisplacedIn history id

/-- Thread 2 is removed and thread 3 changed; then the handles after the first are taken back, and
the second one is given again. -/
example :
    let thread (i : Nat) : Thread := { id := .ofIndex i, name := "worker", policy := .normal }
    let stored := ({ limit := 3 } : ThreadTable).after
      [.reserve {}, .insert (thread 0), .reserve {}, .insert (thread 1), .reserve {},
        .insert (thread 2), .remove (.ofIndex 1), .edit (.ofIndex 2) (.setState .running)]
    stored.ids.map (·.value) = [1, 3] ∧ stored.length = 2 ∧
      (stored.exchange (.reserve {})).answer = .refused .tooManyThreads ∧
      (stored.exchange (.rollback 1)).answer = .withdrawn [{ thread 2 with state := .running }] ∧
      ((stored.after [.rollback 1]).exchange (.reserve {})).answer = .reserved (.ofIndex 1) := by
  decide

end ThreadScheduler.ThreadTable
