/-
Module: ThreadScheduler.SlotTable
Purpose: A store of records under handles. Slot `n - 1` is for the record with handle `n`, so
  finding a record is one look-up; a record taken out leaves its slot empty, so no handle comes
  back.
Main exports: SlotTable
-/
import ThreadScheduler.Handle
import ThreadScheduler.Heap

namespace ThreadScheduler

/-- The slots given out so far, with the number of those that hold a record. -/
structure SlotTable (kind : HandleKind) (α : Type) where
  slots : List (Option α) := []
  live : Nat := 0
  /-- The slots for which there is room. Room that was made once is kept. -/
  capacity : Nat := 0
  deriving DecidableEq, Repr, Inhabited

namespace SlotTable

variable {kind : HandleKind} {α : Type}

/-- The handle that the next record gets. -/
def next (t : SlotTable kind α) : Handle kind := .ofIndex t.slots.length

/-- The record with a handle. -/
def get? (t : SlotTable kind α) (id : Handle kind) : Option α := t.slots[id.index]?.join

/-- The table with room for so many slots. -/
def withCapacity (t : SlotTable kind α) (capacity : Nat) : SlotTable kind α := { t with capacity }

/-- Makes room for one more slot; none if the host refuses. -/
def reserve (t : SlotTable kind α) (heap : Heap) : Option (SlotTable kind α) × Heap :=
  let grown := heap.grow t.slots.length t.capacity
  (grown.1.map t.withCapacity, grown.2)

/-- Stores a record under the next handle. -/
def push (t : SlotTable kind α) (record : α) : SlotTable kind α :=
  { t with slots := t.slots ++ [some record], live := t.live + 1 }

/-- Changes the record with a handle, if there is one. -/
def modify (t : SlotTable kind α) (id : Handle kind) (change : α → α) : SlotTable kind α :=
  { t with slots := t.slots.modify id.index (Option.map change) }

/-- Replaces the record with a handle, if there is one. -/
def replace (t : SlotTable kind α) (id : Handle kind) (record : α) : SlotTable kind α :=
  t.modify id fun _ => record

/-- Takes out the record with a handle and leaves its slot empty. -/
def take (t : SlotTable kind α) (id : Handle kind) : Option (α × SlotTable kind α) :=
  (t.get? id).map fun record =>
    (record, { t with slots := t.slots.set id.index none, live := t.live - 1 })

/-- Gives back every slot from `mark` on, with the records in them. -/
def truncate (t : SlotTable kind α) (mark : Nat) : List α × SlotTable kind α :=
  let removed := (t.slots.drop mark).filterMap id
  (removed, { t with slots := t.slots.take mark, live := t.live - removed.length })

/-- All records in the order of their handles. -/
def toList (t : SlotTable kind α) : List α := t.slots.filterMap id

@[simp] theorem slots_withCapacity (t : SlotTable kind α) (capacity : Nat) :
    (t.withCapacity capacity).slots = t.slots := rfl

@[simp] theorem live_withCapacity (t : SlotTable kind α) (capacity : Nat) :
    (t.withCapacity capacity).live = t.live := rfl

@[simp] theorem next_withCapacity (t : SlotTable kind α) (capacity : Nat) :
    (t.withCapacity capacity).next = t.next := rfl

@[simp] theorem get?_withCapacity (t : SlotTable kind α) (capacity : Nat) :
    (t.withCapacity capacity).get? = t.get? := rfl

@[simp] theorem toList_withCapacity (t : SlotTable kind α) (capacity : Nat) :
    (t.withCapacity capacity).toList = t.toList := rfl

/-- Making room changes nothing but the room, and then there is some. -/
theorem eq_of_reserve {t t' : SlotTable kind α} {heap heap' : Heap}
    (h : t.reserve heap = (some t', heap')) :
    heap.Spends heap' ∧ (t.slots.length < t.capacity ∨ heap.request.1 ≠ none) ∧
      ∃ capacity, t.slots.length < capacity ∧ t' = t.withCapacity capacity := by
  unfold reserve at h
  obtain ⟨grown, later⟩ := Prod.mk.inj h
  obtain ⟨room, granted, same⟩ := Option.map_eq_some_iff.mp grown
  have spends := heap.spends_grow t.slots.length t.capacity
  have given : ¬ (t.capacity ≤ t.slots.length ∧ heap.request.1 = none) := by
    rw [← Heap.grow_eq_none_iff, granted]
    nofun
  exact ⟨later ▸ spends, by grind, room, Heap.lt_of_grow (Prod.ext granted rfl), same.symm⟩

/-- Room is refused if there is none and the host refuses it. -/
theorem refusal_of_reserve {t : SlotTable kind α} {heap heap' : Heap}
    (h : t.reserve heap = (none, heap')) :
    t.capacity ≤ t.slots.length ∧ heap.request = (none, heap') := by
  unfold reserve at h
  obtain ⟨grown, later⟩ := Prod.mk.inj h
  obtain ⟨crowded, refused⟩ := Heap.grow_eq_none_iff.mp (Option.map_eq_none_iff.mp grown)
  rw [Heap.grow, if_neg (Nat.not_lt.mpr crowded)] at later
  exact ⟨crowded, Prod.ext refused later⟩

/-- A new record is found under the next handle, and all others where they were. -/
theorem get?_push (t : SlotTable kind α) (record : α) (id : Handle kind) :
    (t.push record).get? id = if id = t.next then some record else t.get? id := by
  by_cases h : id = t.next
  · simp [h, push, get?, next]
  · have other : id.index ≠ t.slots.length :=
      fun same => h (Handle.index_inj (by simp [same, next]))
    simp only [push, get?, h, if_false]
    by_cases inside : id.index < t.slots.length
    · rw [List.getElem?_append_left inside]
    · rw [List.getElem?_append_right (by omega), List.getElem?_eq_none (by simp; omega),
        List.getElem?_eq_none (by omega)]

/-- A change concerns the record with the handle and no other. -/
theorem get?_modify (t : SlotTable kind α) (id other : Handle kind) (change : α → α) :
    (t.modify id change).get? other =
      if other = id then (t.get? id).map change else t.get? other := by
  by_cases h : other = id
  · subst h
    simp only [modify, get?, List.getElem?_modify_eq, if_true]
    cases t.slots[other.index]? <;> rfl
  · have distinct : id.index ≠ other.index := fun same => h (Handle.index_inj same.symm)
    simp [modify, get?, h, List.getElem?_modify_ne _ _ distinct]

/-- Taking out a record empties its slot and no other. -/
theorem get?_of_take {t rest : SlotTable kind α} {id : Handle kind} {record : α}
    (h : t.take id = some (record, rest)) (other : Handle kind) :
    rest.get? other = if other = id then none else t.get? other := by
  obtain ⟨found, _, same⟩ := Option.map_eq_some_iff.mp h
  obtain ⟨rfl, rfl⟩ := Prod.mk.injEq .. ▸ same
  by_cases here : other = id
  · subst here
    by_cases inside : other.index < t.slots.length <;> simp [get?, inside]
  · have distinct : id.index ≠ other.index := fun eq => here (Handle.index_inj eq.symm)
    simp [get?, here, List.getElem?_set_ne distinct]

/-- A record is taken out exactly if there is one. -/
theorem take_eq_none_iff {t : SlotTable kind α} {id : Handle kind} :
    t.take id = none ↔ t.get? id = none := by
  simp [take]

/-- A handle that has not been given out names nothing. -/
theorem get?_eq_none_of_length_le {t : SlotTable kind α} {id : Handle kind}
    (h : t.slots.length ≤ id.index) : t.get? id = none := by
  simp [get?, List.getElem?_eq_none h]

/-- The records listed are those found under some handle. -/
theorem mem_toList_iff {t : SlotTable kind α} {record : α} :
    record ∈ t.toList ↔ ∃ id, t.get? id = some record := by
  simp only [toList, List.mem_filterMap, get?, Option.join_eq_some_iff]
  constructor
  · rintro ⟨slot, member, rfl⟩
    obtain ⟨i, found⟩ := List.mem_iff_getElem?.mp member
    exact ⟨.ofIndex i, by simpa using found⟩
  · rintro ⟨id, found⟩
    exact ⟨some record, List.mem_of_getElem? found, rfl⟩

end SlotTable

end ThreadScheduler
