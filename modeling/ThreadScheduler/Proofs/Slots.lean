/-
Module: ThreadScheduler.Proofs.Slots
Purpose: What a table of slots keeps, whatever its records are. A slot is empty or holds the record
  that has the handle of the slot, and the records are counted right, also when some are removed and
  when the last slots are given back with whatever is still in them.
Main exports: SlotTable.Counted, SlotTable.Sound, SlotTable.Sound.push, SlotTable.Sound.take,
  SlotTable.get?_truncate, SlotTable.mem_truncate_iff
-/
import ThreadScheduler.Proofs.Tables

namespace ThreadScheduler.SlotTable

variable {kind : HandleKind} {α : Type} {t t' : SlotTable kind α} {name : α → Handle kind}

/-- The number of records is the one that was counted. -/
def Counted (t : SlotTable kind α) : Prop := t.live = t.toList.length

/-- A table in which every record is found under its own handle and the records are counted right.
-/
structure Sound (t : SlotTable kind α) (name : α → Handle kind) : Prop where
  named : ∀ id record, t.get? id = some record → name record = id
  counted : t.Counted

/-! ### Counting records -/

theorem counted_push (h : t.Counted) (record : α) : (t.push record).Counted := by
  unfold Counted
  rw [toList_push, List.length_append, ← h]
  rfl

/-- A record that is changed is still one record. -/
theorem counted_modify (h : t.Counted) (id : Handle kind) (change : α → α) :
    (t.modify id change).Counted := by
  have same := congrArg List.length (t.map_toList_modify id change (fun _ => ()) fun _ => rfl)
  simp only [List.length_map] at same
  exact h.trans same.symm

/-- There is a record to be removed, and one less afterwards. -/
theorem counted_take (h : t.Counted) {id : Handle kind} {record : α}
    (taken : t.take id = some (record, t')) : 0 < t.live ∧ t'.Counted := by
  have less := (toList_perm_of_take taken).length_eq
  rw [← h, List.length_cons] at less
  obtain ⟨_, rfl⟩ := eq_of_take taken
  exact ⟨less ▸ Nat.succ_pos _, Nat.sub_eq_of_eq_add less⟩

/-- The records given back are among those counted. -/
theorem counted_truncate (h : t.Counted) (mark : Nat) :
    (t.truncate mark).1.length ≤ t.live ∧ (t.truncate mark).2.Counted := by
  have split : t.live = ((t.slots.take mark).filterMap id).length +
      ((t.slots.drop mark).filterMap id).length := by
    rw [h, toList, ← List.length_append, ← List.filterMap_append, List.take_append_drop]
  constructor
  · rw [split]
    exact Nat.le_add_left _ _
  · unfold Counted truncate toList
    dsimp only
    rw [split, Nat.add_sub_cancel]

/-- The records are those in the slots that are not empty. -/
theorem length_toList (t : SlotTable kind α) : t.toList.length = t.slots.countP Option.isSome := by
  unfold toList
  induction t.slots with
  | nil => rfl
  | cons slot rest ih =>
    cases slot with
    | none =>
      change (rest.filterMap id).length = _
      rw [List.countP_cons_of_neg Bool.false_ne_true, ih]
    | some record =>
      change (rest.filterMap id).length + 1 = _
      rw [List.countP_cons_of_pos rfl, ih]

/-- A table has one record less after one was removed. -/
theorem live_of_take (h : t.Counted) {id : Handle kind} {record : α}
    (taken : t.take id = some (record, t')) : t'.live + 1 = t.live := by
  have some_left := (counted_take h taken).1
  obtain ⟨_, rfl⟩ := eq_of_take taken
  exact Nat.sub_add_cancel some_left

theorem live_truncate (h : t.Counted) (mark : Nat) :
    (t.truncate mark).2.live + (t.truncate mark).1.length = t.live :=
  Nat.sub_add_cancel (counted_truncate h mark).1

/-- Removing a record gives no slot back. -/
theorem length_slots_of_take {id : Handle kind} {record : α}
    (taken : t.take id = some (record, t')) : t'.slots.length = t.slots.length := by
  obtain ⟨_, rfl⟩ := eq_of_take taken
  exact List.length_set

/-! ### Changing records -/

/-- There is nothing to be changed in an empty slot. -/
theorem modify_of_missing {id : Handle kind} (missing : t.get? id = none) (change : α → α) :
    t.modify id change = t := by
  unfold modify
  congr 1
  apply List.ext_getElem?
  intro i
  rw [List.getElem?_modify]
  split
  · rename_i here
    subst here
    cases slot : t.slots[id.index]? with
    | none => rfl
    | some held =>
      obtain rfl : held = none := by simpa [get?, slot] using missing
      rfl
  · simp

/-! ### Giving slots back -/

/-- Nothing but the handles beyond the mark is given back. -/
theorem get?_truncate (t : SlotTable kind α) (mark : Nat) (id : Handle kind) :
    (t.truncate mark).2.get? id = if id.value ≤ mark then t.get? id else none := by
  have before : id.value ≤ mark ↔ id.index < mark := by
    rw [← id.index_add_one]
    exact Nat.succ_le_iff
  simp only [truncate, get?, List.getElem?_take, before]
  split <;> rfl

/-- The records given back are those of the handles beyond the mark. -/
theorem mem_truncate_iff {mark : Nat} {record : α} :
    record ∈ (t.truncate mark).1 ↔ ∃ id, mark < id.value ∧ t.get? id = some record := by
  simp only [truncate, List.mem_filterMap, get?, Option.join_eq_some_iff]
  constructor
  · rintro ⟨slot, member, rfl⟩
    obtain ⟨i, found⟩ := List.mem_iff_getElem?.mp member
    rw [List.getElem?_drop] at found
    refine ⟨.ofIndex (mark + i), ?_, by simpa using found⟩
    rw [Handle.value_ofIndex]
    omega
  · rintro ⟨id, beyond, found⟩
    have behind : mark + (id.index - mark) = id.index := by
      have := id.index_add_one
      omega
    refine ⟨some record, List.mem_of_getElem? (i := id.index - mark) ?_, rfl⟩
    rw [List.getElem?_drop, behind, found]

theorem length_slots_truncate (t : SlotTable kind α) (mark : Nat) :
    (t.truncate mark).2.slots.length = min mark t.slots.length := List.length_take

/-! ### Sound tables -/

namespace Sound

theorem empty : ({} : SlotTable kind α).Sound name := ⟨nofun, rfl⟩

theorem length_eq (h : t.Sound name) : t.live = t.slots.countP Option.isSome :=
  h.counted.trans t.length_toList

theorem withCapacity (h : t.Sound name) (capacity : Nat) : (t.withCapacity capacity).Sound name :=
  ⟨h.named, h.counted⟩

/-- A record that has the next handle can be added. -/
theorem push (h : t.Sound name) {record : α} (next : name record = t.next) :
    (t.push record).Sound name where
  named id other found := by
    rw [get?_push] at found
    split at found
    · rename_i same
      obtain rfl := Option.some.inj found
      exact next.trans same.symm
    · exact h.named id other found
  counted := counted_push h.counted record

/-- A record that is changed and keeps its handle stays where it is. -/
theorem modify (h : t.Sound name) (id : Handle kind) {change : α → α}
    (keeps : ∀ record, t.get? id = some record → name (change record) = id) :
    (t.modify id change).Sound name where
  named other record found := by
    rw [get?_modify] at found
    split at found
    · rename_i same
      obtain ⟨old, present, rfl⟩ := Option.map_eq_some_iff.mp found
      exact (keeps old present).trans same.symm
    · exact h.named other record found
  counted := counted_modify h.counted id change

theorem take (h : t.Sound name) {id : Handle kind} {record : α}
    (taken : t.take id = some (record, t')) : t'.Sound name where
  named other found present := by
    rw [get?_of_take taken] at present
    split at present
    · cases present
    · exact h.named other found present
  counted := (counted_take h.counted taken).2

/-- The records given back come in the order of their handles. -/
theorem ascending_truncate (h : t.Sound name) (mark : Nat) :
    ((t.truncate mark).1.map name).Pairwise fun a b => a.value < b.value :=
  (ascending_names h.named).sublist (((List.drop_sublist mark t.slots).filterMap id).map name)

end Sound

end ThreadScheduler.SlotTable
