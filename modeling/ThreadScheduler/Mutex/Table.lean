/-
Module: ThreadScheduler.Mutex.Table
Purpose: The registered mutexes under their handles.
Main exports: MutexTable, MutexTable.create, MutexTable.release, MutexTable.ownedBy
-/
import ThreadScheduler.Error
import ThreadScheduler.Mutex.Basic
import ThreadScheduler.SlotTable

namespace ThreadScheduler

/-- The longest name of a mutex, in bytes. -/
def maxMutexName : Nat := 128

/-- The registered mutexes, and how many may ever be registered. -/
structure MutexTable where
  records : SlotTable .mutex Mutex := {}
  limit : Nat
  deriving DecidableEq, Repr, Inhabited

namespace MutexTable

/-- The mutex with a handle. -/
def get? (t : MutexTable) (id : MutexId) : Option Mutex := t.records.get? id

/-- Replaces the mutex with a handle, if there is one. -/
def replace (t : MutexTable) (id : MutexId) (mutex : Mutex) : MutexTable :=
  { t with records := t.records.replace id mutex }

/-- Registers a free mutex. An empty name is replaced by one made from the handle. The length of the
name is judged before the number of mutexes, and the host is asked for room last. -/
def create (t : MutexTable) (heap : Heap) (name : String) :
    Except MutexError MutexId × MutexTable × Heap :=
  let id := t.records.next
  if maxMutexName < name.utf8ByteSize then (.error .invalidName, t, heap)
  else if t.limit < id.value then (.error .tooManyMutexes, t, heap)
  else
    match t.records.reserve heap with
    | (some records, heap) =>
        let name := if name.isEmpty then s!"Mutex-{id}" else name
        (.ok id, { t with records := records.push { handle := id, name } }, heap)
    | (none, heap) => (.error .tooManyMutexes, t, heap)

/-- Removes a mutex that nobody owns. -/
def release (t : MutexTable) (id : MutexId) : Except MutexError MutexTable :=
  match t.records.take id with
  | none => .error (.notFound id.value)
  | some (mutex, records) =>
      if mutex.isLocked then .error (.stillOwned id.value) else .ok { t with records }

/-- All registered mutexes in the order of their handles. -/
def toList (t : MutexTable) : List Mutex := t.records.toList

/-- The mutexes that a thread owns. -/
def ownedBy (t : MutexTable) (thread : ThreadId) : List MutexId :=
  (t.toList.filter (·.owner = some thread)).map (·.handle)

/-- The number of registered mutexes. -/
def length (t : MutexTable) : Nat := t.records.live

/-- Whether no mutex is registered. -/
def isEmpty (t : MutexTable) : Bool := t.length = 0

end MutexTable

end ThreadScheduler
