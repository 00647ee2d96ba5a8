/-
Module: ThreadScheduler.Thread.Table
Purpose: The records of all threads under their handles.
Main exports: ThreadTable, ThreadTable.reserve, ThreadTable.insert, ThreadTable.rollback
-/
import ThreadScheduler.Error
import ThreadScheduler.SlotTable
import ThreadScheduler.Thread.Basic

namespace ThreadScheduler

/-- The records of threads, and how many handles may be given out. -/
structure ThreadTable where
  records : SlotTable .thread Thread := {}
  limit : Nat
  deriving DecidableEq, Repr, Inhabited

namespace ThreadTable

/-- The table with room for so many threads. -/
def withCapacity (t : ThreadTable) (capacity : Nat) : ThreadTable :=
  { t with records := t.records.withCapacity capacity }

/-- Makes room for one more thread; the handle that it gets. None is left when the limit is reached.
Nothing is different afterwards but the room. -/
def reserve (t : ThreadTable) (heap : Heap) : Except SpawnError ThreadId × ThreadTable × Heap :=
  if t.limit < t.records.next.value then (.error .tooManyThreads, t, heap)
  else
    match t.records.reserve heap with
    | (some records, heap) => (.ok t.records.next, { t with records }, heap)
    | (none, heap) => (.error .outOfMemory, t, heap)

/-- Stores the record of a thread that has the next handle; none if it has another one, or if no
room was made for it. -/
def insert (t : ThreadTable) (thread : Thread) : Option ThreadTable :=
  if thread.id ≠ t.records.next ∨ t.records.slots.length = t.records.capacity then none
  else some { t with records := t.records.push thread }

/-- The record with a handle. -/
def get? (t : ThreadTable) (id : ThreadId) : Option Thread := t.records.get? id

/-- Whether there is a record with a handle. -/
def contains (t : ThreadTable) (id : ThreadId) : Bool := (t.get? id).isSome

/-- Changes the record with a handle, if there is one. -/
def modify (t : ThreadTable) (id : ThreadId) (change : Thread → Thread) : ThreadTable :=
  { t with records := t.records.modify id change }

/-- Sets the state of a thread, if there is a record of it. -/
def setState (t : ThreadTable) (id : ThreadId) (state : ThreadState) : ThreadTable :=
  t.modify id ({ · with state })

/-- Takes out the record with a handle. -/
def remove (t : ThreadTable) (id : ThreadId) : Option (Thread × ThreadTable) :=
  (t.records.take id).map fun (thread, records) => (thread, { t with records })

/-- The number of handles given out so far. -/
def mark (t : ThreadTable) : Nat := t.records.slots.length

/-- Takes back the handles given out since `mark`, with their records. The handles are given out
again, so this is for records that nobody has seen yet. -/
def rollback (t : ThreadTable) (mark : Nat) : List Thread × ThreadTable :=
  let (removed, records) := t.records.truncate mark
  (removed, { t with records })

/-- All records in the order of their handles. -/
def toList (t : ThreadTable) : List Thread := t.records.toList

/-- The handles of all records, in ascending order. -/
def ids (t : ThreadTable) : List ThreadId := t.toList.map (·.id)

/-- The number of records. -/
def length (t : ThreadTable) : Nat := t.records.live

/-- Whether there is no record. -/
def isEmpty (t : ThreadTable) : Bool := t.length = 0

end ThreadTable

end ThreadScheduler
