/-
Module: ThreadScheduler.Proofs.Tables
Purpose: What is found in the tables and on the timeline after each of their operations.
Main exports: SlotTable.ascending_names, SlotTable.nodup_names, SlotTable.toList_of_get?,
  SlotTable.map_toList_modify, SlotTable.eq_of_take, SlotTable.toList_perm_of_take,
  ThreadTable.get?_modify, ThreadTable.get?_of_remove, MutexTable.get?_replace,
  MutexTable.get?_of_create, MutexTable.get?_of_release, MutexTable.find?_toList,
  MutexTable.ascending_ownedBy, Timeline.threads
-/
import ThreadScheduler.Mutex.Table
import ThreadScheduler.Thread.Table
import ThreadScheduler.Time.Timeline

namespace ThreadScheduler

/-- Records that know their handles are listed in the order of their handles. -/
theorem SlotTable.ascending_names {kind : HandleKind} {α : Type} {t : SlotTable kind α}
    {name : α → Handle kind} (names : ∀ id record, t.get? id = some record → name record = id) :
    (t.toList.map name).Pairwise fun a b => a.value < b.value := by
  have found (n : Nat) (bound : n < t.slots.length) (record : α)
      (present : t.slots[n] = some record) : name record = .ofIndex n :=
    names (.ofIndex n) record (by simp [get?, bound, present])
  have slots : t.slots.Pairwise fun a b =>
      ∀ x ∈ a, ∀ y ∈ b, (name x).value < (name y).value := by
    apply List.pairwise_iff_getElem.mpr
    intro i j hi hj before x first y second
    rw [found i hi x first, found j hj y second]
    simpa using before
  have ordered : t.toList.Pairwise fun a b => (name a).value < (name b).value :=
    List.Pairwise.filterMap id (fun _ _ less x first y second => less x first y second) slots
  exact List.Pairwise.map _ (fun _ _ less => less) ordered

/-- Handles that ascend are different. -/
theorem Handle.nodup_of_ascending {kind : HandleKind} {ids : List (Handle kind)}
    (ascending : ids.Pairwise fun a b => a.value < b.value) : ids.Nodup :=
  ascending.imp fun less same => absurd (congrArg Handle.value same) (Nat.ne_of_lt less)

/-- Handles that ascend are known by which handles there are. -/
theorem Handle.eq_of_ascending {kind : HandleKind} {ids others : List (Handle kind)}
    (ascending : ids.Pairwise fun a b => a.value < b.value)
    (ascending' : others.Pairwise fun a b => a.value < b.value)
    (same : ∀ id, id ∈ ids ↔ id ∈ others) : ids = others := by
  have perm : ids.Perm others :=
    (List.perm_ext_iff_of_nodup (nodup_of_ascending ascending)
      (nodup_of_ascending ascending')).mpr same
  exact perm.eq_of_pairwise
    (fun _ _ _ _ less greater => absurd less (Nat.lt_asymm greater)) ascending ascending'

/-- Records that know their handles have different handles. -/
theorem SlotTable.nodup_names {kind : HandleKind} {α : Type} {t : SlotTable kind α}
    {name : α → Handle kind} (names : ∀ id record, t.get? id = some record → name record = id) :
    (t.toList.map name).Nodup := Handle.nodup_of_ascending (ascending_names names)

private theorem filterMap_id_of_join {α : Type} {f : α → α} {slots others : List (Option α)}
    (same : ∀ i : Nat, others[i]?.join = slots[i]?.join.map f) :
    others.filterMap id = (slots.filterMap id).map f := by
  induction slots generalizing others with
  | nil =>
    apply List.filterMap_eq_nil_iff.mpr
    intro slot member
    obtain ⟨i, found⟩ := List.mem_iff_getElem?.mp member
    simpa [found] using same i
  | cons slot rest ih =>
    cases others with
    | nil =>
      have first : slot.map f = none := (same 0).symm
      have later : [].filterMap id = (rest.filterMap id).map f := ih fun i => same (i + 1)
      rw [Option.map_eq_none_iff.mp first]
      exact later
    | cons other behind =>
      have first : other = slot.map f := same 0
      have later : behind.filterMap id = (rest.filterMap id).map f := ih fun i => same (i + 1)
      cases slot with
      | none => simpa [first] using later
      | some record => simpa [first] using later

/-- If every record of a table is made from the one that another table has under the handle, the
lists are made from each other, too. -/
theorem SlotTable.toList_of_get? {kind : HandleKind} {α : Type} {t t' : SlotTable kind α}
    {f : α → α} (same : ∀ id, t'.get? id = (t.get? id).map f) : t'.toList = t.toList.map f := by
  apply filterMap_id_of_join
  intro i
  simpa [get?] using same (.ofIndex i)

namespace SlotTable

variable {kind : HandleKind} {α β : Type} {t t' : SlotTable kind α}

theorem toList_push (t : SlotTable kind α) (record : α) :
    (t.push record).toList = t.toList ++ [record] := by
  simp [toList, push]

/-- A record that was just added is the one that a change under its handle concerns. -/
theorem modify_push (t : SlotTable kind α) (record : α) (change : α → α) :
    (t.push record).modify t.next change = t.push (change record) := by
  unfold modify push next
  congr 1
  rw [Handle.index_ofIndex]
  induction t.slots with
  | nil => rfl
  | cons slot rest ih => simp [ih]

/-- What a change of records does not touch is listed as before. -/
theorem map_toList_modify (t : SlotTable kind α) (id : Handle kind) (change : α → α) (view : α → β)
    (same : ∀ record, view (change record) = view record) :
    (t.modify id change).toList.map view = t.toList.map view := by
  have listed (slots : List (Option α)) (i : Nat) :
      ((slots.modify i (Option.map change)).filterMap (·)).map view =
        (slots.filterMap (·)).map view := by
    induction slots generalizing i with
    | nil => cases i <;> rfl
    | cons slot rest ih =>
      cases i with
      | zero => cases slot <;> simp [same]
      | succ i => cases slot <;> simp [ih]
  exact listed t.slots id.index

/-- A record is taken out of its slot, and the slots stay as many as they are. -/
theorem eq_of_take {id : Handle kind} {record : α} (taken : t.take id = some (record, t')) :
    t.get? id = some record ∧
      t' = { t with slots := t.slots.set id.index none, live := t.live - 1 } := by
  obtain ⟨found, present, same⟩ := Option.map_eq_some_iff.mp taken
  obtain ⟨rfl, rfl⟩ := Prod.mk.inj same
  exact ⟨present, rfl⟩

/-- A record that is taken out was listed. -/
theorem toList_perm_of_take {id : Handle kind} {record : α}
    (taken : t.take id = some (record, t')) :
    t.toList.Perm (record :: t'.toList) := by
  have listed (slots : List (Option α)) (i : Nat) (found : slots[i]? = some (some record)) :
      (slots.filterMap (·)).Perm (record :: (slots.set i none).filterMap (·)) := by
    induction slots generalizing i with
    | nil => cases found
    | cons slot later ih =>
      cases i with
      | zero =>
        obtain rfl : slot = some record := by simpa using found
        exact List.Perm.refl _
      | succ i =>
        have behind := ih i (by simpa using found)
        cases slot with
        | none => exact behind
        | some other => exact (behind.cons other).trans (List.Perm.swap _ _ _)
  obtain ⟨present, rfl⟩ := eq_of_take taken
  exact listed _ _ (Option.join_eq_some_iff.mp present)

end SlotTable

namespace ThreadTable

/-- What is found depends on the slots only, not on the room for more of them. -/
theorem get?_congr {t t' : ThreadTable} (slots : t'.records.slots = t.records.slots)
    (id : ThreadId) : t'.get? id = t.get? id := by
  unfold get? SlotTable.get?
  rw [slots]

/-- A thread is removed by taking it out of its slot. -/
theorem exists_take_of_remove {t rest : ThreadTable} {id : ThreadId} {thread : Thread}
    (removed : t.remove id = some (thread, rest)) :
    ∃ records, t.records.take id = some (thread, records) ∧ rest = { t with records } := by
  obtain ⟨⟨found, records⟩, taken, same⟩ := Option.map_eq_some_iff.mp removed
  obtain ⟨rfl, rfl⟩ := Prod.mk.inj same
  exact ⟨records, taken, rfl⟩

/-- A record that is taken out was listed. -/
theorem toList_perm_of_remove {t rest : ThreadTable} {id : ThreadId} {thread : Thread}
    (removed : t.remove id = some (thread, rest)) : t.toList.Perm (thread :: rest.toList) := by
  obtain ⟨records, taken, rfl⟩ := exists_take_of_remove removed
  exact SlotTable.toList_perm_of_take taken

theorem get?_modify (t : ThreadTable) (id other : ThreadId) (change : Thread → Thread) :
    (t.modify id change).get? other =
      if other = id then (t.get? id).map change else t.get? other :=
  SlotTable.get?_modify t.records id other change

theorem get?_push (t : ThreadTable) (thread : Thread) (other : ThreadId) :
    ({ t with records := t.records.push thread } : ThreadTable).get? other =
      if other = t.records.next then some thread else t.get? other :=
  SlotTable.get?_push t.records thread other

/-- The same of a table with room for so many threads. -/
theorem get?_push_withCapacity (t : ThreadTable) (capacity : Nat) (thread : Thread)
    (other : ThreadId) :
    ({ t with records := (t.records.withCapacity capacity).push thread } : ThreadTable).get? other =
      if other = t.records.next then some thread else t.get? other :=
  (t.withCapacity capacity).get?_push thread other

/-- A record that was taken out is not found any more; every other one still is. -/
theorem get?_of_remove {t rest : ThreadTable} {id : ThreadId} {thread : Thread}
    (h : t.remove id = some (thread, rest)) (other : ThreadId) :
    rest.get? other = if other = id then none else t.get? other := by
  obtain ⟨records, taken, rfl⟩ := exists_take_of_remove h
  exact SlotTable.get?_of_take taken other

theorem remove_eq_none_iff {t : ThreadTable} {id : ThreadId} :
    t.remove id = none ↔ t.get? id = none := by
  unfold remove get?
  rw [Option.map_eq_none_iff, SlotTable.take_eq_none_iff]

/-- What comes of asking a table to make room for a thread. -/
inductive Reserves (t : ThreadTable) (heap : Heap) :
    Except SpawnError ThreadId × ThreadTable × Heap → Prop where
  | full (full : t.limit < t.mark + 1) : Reserves t heap (.error .tooManyThreads, t, heap)
  /-- There is no room for another thread, and the host refuses it. -/
  | denied {heap' : Heap} (room : t.mark + 1 ≤ t.limit) (crowded : t.records.capacity ≤ t.mark)
      (answer : heap.request = (none, heap')) : Reserves t heap (.error .outOfMemory, t, heap')
  | reserved {capacity : Nat} {heap' : Heap} (room : t.mark + 1 ≤ t.limit)
      (spare : t.mark < capacity) (spends : heap.Spends heap')
      (granted : t.mark < t.records.capacity ∨ heap.request.1 ≠ none) :
      Reserves t heap (.ok (.ofIndex t.mark), t.withCapacity capacity, heap')

theorem reserves (t : ThreadTable) (heap : Heap) : t.Reserves heap (t.reserve heap) := by
  unfold reserve
  split
  · exact .full ‹_›
  · have room := Nat.le_of_not_lt ‹_›
    split <;> rename_i answer
    · obtain ⟨spends, granted, capacity, spare, rfl⟩ := SlotTable.eq_of_reserve answer
      exact .reserved room spare spends granted
    · obtain ⟨crowded, refused⟩ := SlotTable.refusal_of_reserve answer
      exact .denied room crowded refused

theorem room_of_reserve {t t' : ThreadTable} {id : ThreadId} {heap heap' : Heap}
    (h : t.reserve heap = (.ok id, t', heap')) : t.records.next.value ≤ t.limit := by
  have reserves := t.reserves heap
  rw [h] at reserves
  cases reserves with
  | reserved room => exact room

/-- The handle that is reserved names no record yet. -/
theorem get?_of_reserve {t t' : ThreadTable} {id : ThreadId} {heap heap' : Heap}
    (h : t.reserve heap = (.ok id, t', heap')) : id = t.records.next ∧ t.get? id = none := by
  have reserves := t.reserves heap
  rw [h] at reserves
  cases reserves
  exact ⟨rfl, SlotTable.get?_eq_none_of_length_le (Nat.le_refl _)⟩

theorem spends_of_reserve {t t' : ThreadTable} {heap heap' : Heap}
    {reserved : Except SpawnError ThreadId} (h : t.reserve heap = (reserved, t', heap')) :
    heap.Spends heap' := by
  have reserves := t.reserves heap
  have request := heap.spends_request
  rw [h] at reserves
  cases reserves with
  | full => exact .refl heap
  | denied _ _ answer => rwa [answer] at request
  | reserved _ _ spends => exact spends

/-- A record finds its place under the next handle, if there is room for it. -/
theorem insert_of_room {t : ThreadTable} {thread : Thread} (next : thread.id = t.records.next)
    (room : t.mark < t.records.capacity) :
    t.insert thread = some { t with records := t.records.push thread } :=
  if_neg fun refused => refused.elim (· next) (Nat.ne_of_lt room)

theorem mem_toList_iff {t : ThreadTable} {thread : Thread} :
    thread ∈ t.toList ↔ ∃ id, t.get? id = some thread := SlotTable.mem_toList_iff

/-- The handles listed are those of the records, if the records know their handles. -/
theorem mem_ids_iff {t : ThreadTable} {id : ThreadId}
    (handles : ∀ id thread, t.get? id = some thread → thread.id = id) :
    id ∈ t.ids ↔ (t.get? id).isSome := by
  simp only [ids, List.mem_map, mem_toList_iff, Option.isSome_iff_exists]
  constructor
  · rintro ⟨thread, ⟨other, found⟩, rfl⟩
    exact ⟨thread, (handles other thread found).symm ▸ found⟩
  · rintro ⟨thread, found⟩
    exact ⟨thread, ⟨id, found⟩, handles id thread found⟩

/-- If every handle given out names a record, the records are listed under these handles. -/
theorem ids_of_complete {t : ThreadTable}
    (handle : ∀ {id thread}, t.get? id = some thread → thread.id = id)
    (complete : ∀ index < t.mark, (t.get? (.ofIndex index)).isSome) :
    t.ids = (List.range t.mark).map .ofIndex := by
  have slots : t.records.slots.map (Option.map (·.id)) =
      (List.range t.mark).map fun index => some (.ofIndex index) := by
    apply List.ext_getElem
    · rw [List.length_map, List.length_map, List.length_range]
      rfl
    · intro index inside _
      rw [List.length_map] at inside
      obtain ⟨thread, found⟩ := Option.isSome_iff_exists.mp (complete index inside)
      have slot : t.records.slots[index] = some thread := by
        simpa [ThreadTable.get?, SlotTable.get?, inside] using found
      simp [slot, handle found]
  calc t.ids
      = (t.records.slots.map (Option.map (·.id))).filterMap id := by
        simp [ids, toList, SlotTable.toList, List.map_filterMap, List.filterMap_map]
    _ = (List.range t.mark).map .ofIndex := by
        rw [slots]
        simp [List.filterMap_map]

end ThreadTable

namespace MutexTable

theorem get?_replace (t : MutexTable) (id other : MutexId) (mutex : Mutex) :
    (t.replace id mutex).get? other =
      if other = id then (t.get? id).map fun _ => mutex else t.get? other :=
  SlotTable.get?_modify t.records id other _

/-- The name of a mutex that was created with a name or without one. -/
def givenName (id : MutexId) (wanted : String) : String :=
  if wanted = "" then "Mutex-" ++ toString id.value else wanted

/-- A new mutex with the next handle. -/
def fresh (t : MutexTable) (wanted : String) : Mutex where
  handle := t.records.next
  name := givenName t.records.next wanted

/-- What comes of asking a table for a new mutex. -/
inductive Creates (t : MutexTable) (heap : Heap) (name : String) :
    Except MutexError MutexId × MutexTable × Heap → Prop where
  | misnamed (long : maxMutexName < name.utf8ByteSize) :
      Creates t heap name (.error .invalidName, t, heap)
  | full (fits : name.utf8ByteSize ≤ maxMutexName) (full : t.limit < t.records.slots.length + 1) :
      Creates t heap name (.error .tooManyMutexes, t, heap)
  /-- There is no room for another mutex, and the host refuses it. -/
  | denied {heap' : Heap} (fits : name.utf8ByteSize ≤ maxMutexName)
      (room : t.records.slots.length + 1 ≤ t.limit)
      (crowded : t.records.capacity ≤ t.records.slots.length)
      (answer : heap.request = (none, heap')) :
      Creates t heap name (.error .tooManyMutexes, t, heap')
  | created {capacity : Nat} {heap' : Heap} (fits : name.utf8ByteSize ≤ maxMutexName)
      (room : t.records.slots.length + 1 ≤ t.limit) (spare : t.records.slots.length < capacity)
      (spends : heap.Spends heap')
      (granted : t.records.slots.length < t.records.capacity ∨ heap.request.1 ≠ none) :
      Creates t heap name
        (.ok t.records.next,
          { t with records := (t.records.withCapacity capacity).push (t.fresh name) }, heap')

theorem creates (t : MutexTable) (heap : Heap) (name : String) :
    t.Creates heap name (t.create heap name) := by
  have named : (if name.isEmpty then s!"Mutex-{t.records.next}" else name) =
      givenName t.records.next name := by
    simp [givenName, toString, String.isEmpty_iff]
  unfold create
  dsimp only
  split
  · exact .misnamed ‹_›
  have fits := Nat.le_of_not_lt ‹_›
  split
  · exact .full fits ‹_›
  have room := Nat.le_of_not_lt ‹_›
  split <;> rename_i answer
  · obtain ⟨spends, granted, capacity, spare, rfl⟩ := SlotTable.eq_of_reserve answer
    rw [named]
    exact .created fits room spare spends granted
  · obtain ⟨crowded, refused⟩ := SlotTable.refusal_of_reserve answer
    exact .denied fits room crowded refused

theorem spends_of_create {t t' : MutexTable} {heap heap' : Heap} {name : String}
    {created : Except MutexError MutexId} (h : t.create heap name = (created, t', heap')) :
    heap.Spends heap' := by
  have creates := t.creates heap name
  have request := heap.spends_request
  rw [h] at creates
  cases creates with
  | misnamed | full => exact .refl heap
  | denied _ _ _ answer => rwa [answer] at request
  | created _ _ _ spends => exact spends

/-- A new mutex is free and has a handle that named nothing before. -/
theorem get?_of_create {t rest : MutexTable} {name : String} {id : MutexId} {heap heap' : Heap}
    (h : t.create heap name = (.ok id, rest, heap')) :
    t.get? id = none ∧ ∃ mutex : Mutex, mutex.handle = id ∧ mutex.hold = none ∧
      ∀ other, rest.get? other = if other = id then some mutex else t.get? other := by
  have creates := t.creates heap name
  rw [h] at creates
  cases creates
  refine ⟨SlotTable.get?_eq_none_of_length_le (Nat.le_refl _), t.fresh name, rfl, rfl, ?_⟩
  exact SlotTable.get?_push (t.records.withCapacity _) _

/-- Only a mutex that is free can be taken out. -/
theorem get?_of_release {t rest : MutexTable} {id : MutexId} (h : t.release id = .ok rest) :
    (∃ mutex, t.get? id = some mutex ∧ mutex.hold = none) ∧
      ∀ other, rest.get? other = if other = id then none else t.get? other := by
  unfold release at h
  split at h
  · cases h
  · rename_i mutex records taken
    split at h
    · cases h
    · rename_i free
      obtain rfl := Except.ok.inj h
      exact ⟨⟨mutex, (SlotTable.eq_of_take taken).1, by simpa [Mutex.isLocked] using free⟩,
        SlotTable.get?_of_take taken⟩

theorem mem_toList_iff {t : MutexTable} {mutex : Mutex} :
    mutex ∈ t.toList ↔ ∃ id, t.get? id = some mutex := SlotTable.mem_toList_iff

/-- The mutexes listed as owned by a thread are those whose record names it. -/
theorem mem_ownedBy_iff {t : MutexTable} {thread : ThreadId}
    (handles : ∀ id mutex, t.get? id = some mutex → mutex.handle = id) {id : MutexId} :
    id ∈ t.ownedBy thread ↔ ∃ mutex, t.get? id = some mutex ∧ mutex.owner = some thread := by
  simp only [ownedBy, List.mem_map, List.mem_filter, mem_toList_iff, decide_eq_true_eq]
  constructor
  · rintro ⟨mutex, ⟨⟨other, found⟩, owned⟩, rfl⟩
    exact ⟨mutex, (handles other mutex found).symm ▸ found, owned⟩
  · rintro ⟨mutex, found, owned⟩
    exact ⟨mutex, ⟨⟨id, found⟩, owned⟩, handles id mutex found⟩

/-- The mutex with a handle is the one found in the list. -/
theorem find?_toList {t : MutexTable}
    (handles : ∀ id mutex, t.get? id = some mutex → mutex.handle = id) (id : MutexId) :
    t.toList.find? (·.handle = id) = t.get? id := by
  cases found : t.toList.find? (·.handle = id) with
  | some mutex =>
    obtain ⟨other, present⟩ := mem_toList_iff.mp (List.mem_of_find?_eq_some found)
    have named : mutex.handle = id := by simpa using List.find?_some found
    rw [← named, handles other mutex present, present]
  | none =>
    cases present : t.get? id with
    | none => rfl
    | some mutex =>
      have absent := List.find?_eq_none.mp found mutex (mem_toList_iff.mpr ⟨id, present⟩)
      simp [handles id mutex present] at absent

private theorem listing_modify {α β : Type} (wanted : α → Bool) (view : α → β) (fresh : α)
    (slots : List (Option α)) (i : Nat)
    (same : ∀ old, slots[i]? = some (some old) → wanted fresh = wanted old ∧
      view fresh = view old) :
    (((slots.modify i (Option.map fun _ => fresh)).filterMap id).filter wanted).map view =
      ((slots.filterMap id).filter wanted).map view := by
  induction slots generalizing i with
  | nil => cases i <;> rfl
  | cons slot rest ih =>
    cases i with
    | zero =>
      cases slot with
      | none => rfl
      | some old =>
        obtain ⟨wants, views⟩ := same old rfl
        simp [List.filter_cons, wants, views, apply_ite]
    | succ i =>
      have later := ih i fun old found => same old found
      cases slot with
      | none => simpa using later
      | some record =>
        simp only [List.modify_succ_cons, List.filterMap_cons, id, List.filter_cons]
        split
        · exact congrArg (view record :: ·) later
        · exact later

/-- A thread owns what it owned when a mutex changes and keeps handle and owner. -/
theorem ownedBy_replace {t : MutexTable} {m : MutexId} {old mutex : Mutex} (thread : ThreadId)
    (found : t.get? m = some old) (handle : mutex.handle = old.handle)
    (owner : mutex.owner = old.owner) : (t.replace m mutex).ownedBy thread = t.ownedBy thread := by
  apply listing_modify (·.owner = some thread) (·.handle) mutex t.records.slots m.index
  intro other present
  have same : old = other := by
    have joined : t.records.slots[m.index]?.join = some old := found
    rw [present] at joined
    exact (Option.some.inj joined).symm
  simp [← same, handle, owner]

/-- Whatever mutexes are looked for, each of them is listed once. -/
theorem nodup_handles {t : MutexTable} (wanted : Mutex → Bool)
    (handles : ∀ id mutex, t.get? id = some mutex → mutex.handle = id) :
    ((t.toList.filter wanted).map (·.handle)).Nodup :=
  (SlotTable.nodup_names handles).sublist (List.filter_sublist.map _)

/-- The mutexes of a thread are listed in the order of their handles. -/
theorem ascending_ownedBy {t : MutexTable} (thread : ThreadId)
    (handles : ∀ id mutex, t.get? id = some mutex → mutex.handle = id) :
    (t.ownedBy thread).Pairwise fun a b => a.value < b.value :=
  (SlotTable.ascending_names handles).sublist (List.filter_sublist.map _)

end MutexTable

namespace Timeline

/-- The sleeping threads, soonest first. -/
def threads (t : Timeline) : List ThreadId := t.nodes.map (·.thread)

private theorem insertNode_perm (thread : ThreadId) (wait : Duration) (nodes : List Sleeper) :
    ((insertNode thread wait nodes).map (·.thread)).Perm (thread :: nodes.map (·.thread)) := by
  induction nodes generalizing wait with
  | nil => exact List.Perm.refl _
  | cons node rest ih =>
    unfold insertNode
    split
    · exact List.Perm.refl _
    · exact ((ih _).cons node.thread).trans (List.Perm.swap _ _ _)

/-- Putting a thread to sleep adds it and nothing else. -/
theorem threads_enqueue_perm (t : Timeline) (thread : ThreadId) (wake : Instant) :
    (t.enqueue thread wake).threads.Perm (thread :: t.threads) :=
  insertNode_perm thread _ t.nodes

private theorem postpone_threads (delay : Duration) (nodes : List Sleeper) :
    (postpone delay nodes).map (·.thread) = nodes.map (·.thread) := by
  cases nodes <;> rfl

private theorem unlink_threads {thread : ThreadId} {nodes rest : List Sleeper}
    (h : unlink thread nodes = some rest) :
    (nodes.map (·.thread)).Perm (thread :: rest.map (·.thread)) := by
  induction nodes generalizing rest with
  | nil => cases h
  | cons node others ih =>
    unfold unlink at h
    split at h
    · rename_i same
      obtain rfl := Option.some.inj h
      simp [postpone_threads, same]
    · obtain ⟨shorter, removed, rfl⟩ := Option.map_eq_some_iff.mp h
      exact ((ih removed).cons node.thread).trans (List.Perm.swap _ _ _)

/-- Taking a thread off the timeline takes out one occurrence of it and nothing else. -/
theorem threads_perm_of_remove {t rest : Timeline} {thread : ThreadId}
    (h : t.remove thread = some rest) : t.threads.Perm (thread :: rest.threads) := by
  obtain ⟨nodes, removed, rfl⟩ := Option.map_eq_some_iff.mp h
  exact unlink_threads removed

private theorem unlink_isSome_iff {thread : ThreadId} {nodes : List Sleeper} :
    (unlink thread nodes).isSome ↔ thread ∈ nodes.map (·.thread) := by
  induction nodes with
  | nil => simp [unlink]
  | cons node rest ih =>
    unfold unlink
    split
    · rename_i same
      simp [same]
    · rename_i other
      simp only [Option.isSome_map, ih, List.map_cons, List.mem_cons]
      exact ⟨.inr, fun h => h.resolve_left fun same => other same.symm⟩

/-- A thread can be taken off the timeline exactly if it sleeps. -/
theorem remove_isSome_iff {t : Timeline} {thread : ThreadId} :
    (t.remove thread).isSome ↔ thread ∈ t.threads := by
  simp [remove, threads, unlink_isSome_iff]

theorem contains_iff {t : Timeline} {thread : ThreadId} :
    t.contains thread = true ↔ thread ∈ t.threads := by
  simp [contains, threads]

private theorem elapse_threads (elapsed : Duration) (nodes : List Sleeper) :
    (elapse elapsed nodes).map (·.thread) = nodes.map (·.thread) := by
  induction nodes generalizing elapsed with
  | nil => rfl
  | cons node rest ih => simp [elapse, ih]

/-- The passing of time neither adds nor removes a thread. -/
theorem threads_advance (t : Timeline) (elapsed : Duration) :
    (t.advance elapsed).threads = t.threads :=
  elapse_threads elapsed t.nodes

/-- The threads that are due come first; the others stay. -/
theorem threads_drain (t : Timeline) : t.drain.1 ++ t.drain.2.threads = t.threads := by
  simp [drain, threads, ← List.map_append]

end Timeline

end ThreadScheduler
