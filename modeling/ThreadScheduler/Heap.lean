/-
Module: ThreadScheduler.Heap
Purpose: The memory that the host lends. The host may refuse a request; what it answers to the next
  requests is part of the state, so a statement about every heap is one about every host.
Main exports: Heap, Heap.request, Heap.newBlock, Heap.grow, Heap.NeverFails,
  Heap.refusals, Heap.Spends
-/

namespace ThreadScheduler

/-- The memory behind all pools and tables: the number of the next block that nobody has had yet,
and what the host answers to the requests to come. -/
structure Heap where
  nextBlock : Nat := 0
  /-- The next answers, in order: none where the host refuses, else the elements for which it gives
  room beyond those asked for. A host without any more answers gives exactly what is asked for. -/
  answers : List (Option Nat) := []
  deriving DecidableEq, Repr, Inhabited

namespace Heap

/-- Asks the host for memory. -/
def request (heap : Heap) : Option Nat × Heap :=
  match heap.answers with
  | [] => (some 0, heap)
  | answer :: answers => (answer, { heap with answers })

/-- Asks for a block that nobody has had; its number. -/
def newBlock (heap : Heap) : Option Nat × Heap :=
  match heap.request with
  | (some _, heap) => (some heap.nextBlock, { heap with nextBlock := heap.nextBlock + 1 })
  | (none, heap) => (none, heap)

/-- Makes room for one more element behind those of a vector; the room it has then. The host is
asked only if there is no room left. -/
def grow (heap : Heap) (length capacity : Nat) : Option Nat × Heap :=
  if length < capacity then (some capacity, heap)
  else (heap.request.1.map (length + 1 + ·), heap.request.2)

/-- The host refuses no request. -/
def NeverFails (heap : Heap) : Prop := none ∉ heap.answers

instance (heap : Heap) : Decidable heap.NeverFails :=
  inferInstanceAs (Decidable (none ∉ heap.answers))

/-- The host has answered some requests, and no block was taken. -/
structure Spends (heap heap' : Heap) : Prop where
  nextBlock : heap'.nextBlock = heap.nextBlock
  answers : heap'.answers <:+ heap.answers

/-- The refusals among the answers to come. -/
def refusals (heap : Heap) : Nat := heap.answers.count none

variable {heap heap' heap'' : Heap} {length capacity room block : Nat}

theorem NeverFails.of_suffix (h : heap.NeverFails) (later : heap'.answers <:+ heap.answers) :
    heap'.NeverFails := fun refusal => h (later.subset refusal)

theorem Spends.refl (heap : Heap) : heap.Spends heap := ⟨rfl, List.suffix_refl _⟩

theorem Spends.trans (first : heap.Spends heap') (second : heap'.Spends heap'') :
    heap.Spends heap'' :=
  ⟨second.nextBlock.trans first.nextBlock, second.answers.trans first.answers⟩

theorem Spends.neverFails (h : heap.Spends heap') (never : heap.NeverFails) : heap'.NeverFails :=
  never.of_suffix h.answers

theorem spends_request (heap : Heap) : heap.Spends heap.request.2 := by
  unfold request
  split
  · exact .refl heap
  · rename_i same
    exact ⟨rfl, same ▸ List.suffix_cons _ _⟩

/-- A host that refuses nothing answers every request. -/
theorem NeverFails.request (h : heap.NeverFails) : ∃ spare, heap.request.1 = some spare := by
  unfold Heap.request
  split
  · exact ⟨0, rfl⟩
  · rename_i answer answers same
    cases answer with
    | some spare => exact ⟨spare, rfl⟩
    | none => exact absurd (same ▸ List.mem_cons_self) h

/-- A host that refuses something does not grant everything. -/
theorem not_neverFails_of_request (refused : heap.request.1 = none) : ¬ heap.NeverFails := by
  intro never
  obtain ⟨spare, granted⟩ := never.request
  cases refused.symm.trans granted

theorem NeverFails.refusals_eq (h : heap.NeverFails) : heap.refusals = 0 :=
  List.count_eq_zero.mpr h

theorem Spends.refusals_le (h : heap.Spends heap') : heap'.refusals ≤ heap.refusals :=
  h.answers.sublist.count_le none

/-- A request that is refused uses up a refusal, and a request that is granted does not. -/
theorem refusals_request (heap : Heap) :
    heap.request.1.elim 1 (fun _ => 0) + heap.request.2.refusals = heap.refusals := by
  unfold request refusals
  split
  · exact Nat.zero_add _
  · rename_i answer answers same
    rw [same]
    cases answer with
    | none => simp [Nat.add_comm]
    | some spare => simp

theorem refusals_grow (heap : Heap) (length capacity : Nat) :
    (heap.grow length capacity).1.elim 1 (fun _ => 0) + (heap.grow length capacity).2.refusals =
      heap.refusals := by
  have used := heap.refusals_request
  unfold grow
  split
  · exact Nat.zero_add _
  · rw [← used]
    cases heap.request.1 <;> rfl

theorem spends_grow (heap : Heap) (length capacity : Nat) :
    heap.Spends (heap.grow length capacity).2 := by
  unfold grow
  split
  · exact .refl heap
  · exact heap.spends_request

/-- There is room for another element after room was made. -/
theorem lt_of_grow (h : heap.grow length capacity = (some room, heap')) : length < room := by
  unfold grow at h
  split at h
  · rw [← Option.some.inj (Prod.mk.inj h).1]
    assumption
  · obtain ⟨spare, _, same⟩ := Option.map_eq_some_iff.mp (Prod.mk.inj h).1
    omega

/-- Room is refused exactly if there is none and the host refuses it. -/
theorem grow_eq_none_iff :
    (heap.grow length capacity).1 = none ↔ capacity ≤ length ∧ heap.request.1 = none := by
  unfold grow
  split <;> simp <;> omega

end Heap

end ThreadScheduler
