/-
Module: ThreadScheduler.Proofs.Stacks
Purpose: What a stack pool grants and takes back, and its balance. Stacks that were granted one
  after the other and are then given back leave the pool as it was, but for the counters, for new
  blocks that it keeps for later and for stacks that it freed because the host gave no room to keep
  them.
Main exports: StackPool.freeStacks, StackPool.Sorted, StackPool.Allocates, StackPool.allocates,
  StackPool.Grants, StackPool.deallocateAll, StackPool.TakesBack, StackPool.takesBack,
  StackPool.Recovers, StackPool.Grants.recovers
-/
import ThreadScheduler.Stack.Pool

namespace ThreadScheduler

namespace StackPool

variable {pool pool' pool'' : StackPool} {heap heap' heap'' : Heap}
  {taken fresh returned lost more : List Stack} {stack : Stack} {sizeClass : SizeClass}

/-! ### Free lists -/

/-- The free stacks of a class, the one last given back first. -/
def freeStacks (pool : StackPool) (sizeClass : SizeClass) : List Stack :=
  (pool.list sizeClass).entries

/-- All free stacks, class by class. -/
def free (pool : StackPool) : List Stack := SizeClass.all.flatMap pool.freeStacks

/-- Every free stack is in the list of its class. -/
def Sorted (pool : StackPool) : Prop :=
  ∀ sizeClass, ∀ stack ∈ pool.freeStacks sizeClass, stack.sizeClass = sizeClass

/-- A free list is replaced without the others. -/
theorem list_setList (pool : StackPool) (sizeClass other : SizeClass) (list : FreeList) :
    (pool.setList sizeClass list).list other =
      if sizeClass = other then list else pool.list other := by
  have same : (sizeClass.index : Nat) = other.index ↔ sizeClass = other :=
    Fin.val_inj.trans SizeClass.index_inj
  simp only [setList, StackPool.list, Fin.getElem_fin, Vector.getElem_set, same]

theorem mem_free_iff : stack ∈ pool.free ↔ ∃ sizeClass, stack ∈ pool.freeStacks sizeClass := by
  have all (c : SizeClass) : c ∈ SizeClass.all := by cases c <;> decide
  simp [free, List.mem_flatMap, all]

/-- What is put in front of one free list is put in front of all free stacks. -/
theorem free_perm_of_prepend (sizeClass : SizeClass) (front : List Stack)
    (prepended : ∀ other, pool'.freeStacks other =
      if sizeClass = other then front ++ pool.freeStacks other else pool.freeStacks other) :
    pool'.free.Perm (front ++ pool.free) := by
  rw [List.perm_iff_count]
  intro a
  cases sizeClass <;> simp [free, SizeClass.all, prepended, List.count_append] <;> omega

/-! ### One stack -/

/-- The pool after the stack on top of a free list was granted. -/
def popped (pool : StackPool) (sizeClass : SizeClass) (rest : List Stack) : StackPool :=
  { pool.setList sizeClass { pool.list sizeClass with entries := rest } with
    inUse := pool.inUse + 1 }

/-- The pool after a stack was granted in a new block. -/
def extended (pool : StackPool) : StackPool :=
  { pool with allocated := pool.allocated + 1, inUse := pool.inUse + 1 }

theorem freeStacks_popped (pool : StackPool) (sizeClass other : SizeClass) (rest : List Stack) :
    (pool.popped sizeClass rest).freeStacks other =
      if sizeClass = other then rest else pool.freeStacks other := by
  have list := pool.list_setList sizeClass other { pool.list sizeClass with entries := rest }
  change (StackPool.list _ other).entries = _
  unfold popped
  rw [show StackPool.list { pool.setList sizeClass { pool.list sizeClass with entries := rest } with
    inUse := pool.inUse + 1 } other = _ from list]
  split <;> rfl

theorem free_perm_of_popped {rest : List Stack} (top : pool.freeStacks sizeClass = stack :: rest) :
    pool.free.Perm (stack :: (pool.popped sizeClass rest).free) := by
  refine free_perm_of_prepend sizeClass [stack] fun other => ?_
  rw [freeStacks_popped]
  split
  · subst other
    exact top
  · rfl

theorem Sorted.popped {rest : List Stack} (h : pool.Sorted)
    (top : pool.freeStacks sizeClass = stack :: rest) : (pool.popped sizeClass rest).Sorted := by
  intro other kept member
  rw [freeStacks_popped] at member
  split at member
  · subst other
    exact h _ _ (top ▸ List.mem_cons_of_mem _ member)
  · exact h _ _ member

/-- What a pool does when a stack of a class is asked of it. -/
inductive Allocates (pool : StackPool) (heap : Heap) (sizeClass : SizeClass) :
    Except MemoryError Stack × StackPool × Heap → Prop where
  | refuses (full : pool.limit ≤ pool.inUse) :
      Allocates pool heap sizeClass (.error .outOfMemory, pool, heap)
  /-- No stack of the class is free, and the host refuses a new block. -/
  | denied {heap' : Heap} (room : pool.inUse < pool.limit) (bare : pool.freeStacks sizeClass = [])
      (answer : heap.request = (none, heap')) :
      Allocates pool heap sizeClass (.error .outOfMemory, pool, heap')
  /-- The stack on top of the free list is granted. -/
  | reuses {stack : Stack} {rest : List Stack} (room : pool.inUse < pool.limit)
      (top : pool.freeStacks sizeClass = stack :: rest) :
      Allocates pool heap sizeClass (.ok stack, pool.popped sizeClass rest, heap)
  | creates {heap' : Heap} {spare : Nat} (room : pool.inUse < pool.limit)
      (bare : pool.freeStacks sizeClass = []) (answer : heap.request = (some spare, heap')) :
      Allocates pool heap sizeClass
        (.ok ⟨heap.nextBlock, sizeClass⟩, pool.extended,
          { heap' with nextBlock := heap.nextBlock + 1 })

theorem allocates (pool : StackPool) (heap : Heap) (sizeClass : SizeClass) :
    pool.Allocates heap sizeClass (pool.allocate heap sizeClass) := by
  unfold allocate
  split
  · exact .refuses ‹_›
  · have room : pool.inUse < pool.limit := UInt64.not_le.mp ‹_›
    dsimp only
    split
    · exact .reuses room ‹_›
    · rename_i bare
      have asked := heap.spends_request
      unfold Heap.newBlock
      rcases answer : heap.request with ⟨_ | spare, heap'⟩
      · exact .denied room bare answer
      · rw [answer] at asked
        have creates := Allocates.creates room bare answer
        rw [← asked.nextBlock] at creates
        exact creates

/-- A pool that grants a stack is below its limit, and grants a free stack of the class or one in a
new block. -/
structure Grant (pool : StackPool) (heap : Heap) (sizeClass : SizeClass) (stack : Stack)
    (pool' : StackPool) (heap' : Heap) : Prop where
  room : pool.inUse < pool.limit
  limit : pool'.limit = pool.limit
  deallocated : pool'.deallocated = pool.deallocated
  inUse : pool'.inUse = pool.inUse + 1
  answers : heap'.answers <:+ heap.answers
  origin : stack ∈ pool.freeStacks sizeClass ∧ pool.free.Perm (stack :: pool'.free) ∧
        pool'.allocated = pool.allocated ∧ heap'.nextBlock = heap.nextBlock ∨
      stack = ⟨heap.nextBlock, sizeClass⟩ ∧ pool'.free = pool.free ∧
        pool'.allocated = pool.allocated + 1 ∧ heap'.nextBlock = heap.nextBlock + 1
  sorted : pool.Sorted → pool'.Sorted ∧ stack.sizeClass = sizeClass

theorem grant_of_allocate (granted : pool.allocate heap sizeClass = (.ok stack, pool', heap')) :
    pool.Grant heap sizeClass stack pool' heap' := by
  have allocates := pool.allocates heap sizeClass
  rw [granted] at allocates
  cases allocates with
  | @reuses _ rest room top =>
    have first : stack ∈ pool.freeStacks sizeClass := top ▸ List.mem_cons_self
    exact ⟨room, rfl, rfl, rfl, List.suffix_refl _,
      .inl ⟨first, free_perm_of_popped top, rfl, rfl⟩, fun sorted =>
        ⟨sorted.popped top, sorted _ _ first⟩⟩
  | creates room _ answer =>
    have asked := heap.spends_request
    rw [answer] at asked
    exact ⟨room, rfl, rfl, rfl, asked.answers, .inr ⟨rfl, rfl, rfl, rfl⟩,
      fun sorted => ⟨sorted, rfl⟩⟩

/-- A pool that grants nothing is as it was, and at most the host was asked. -/
theorem refusal_of_allocate {error : MemoryError}
    (refused : pool.allocate heap sizeClass = (.error error, pool', heap')) :
    pool' = pool ∧ heap.Spends heap' := by
  have allocates := pool.allocates heap sizeClass
  rw [refused] at allocates
  cases allocates with
  | refuses => exact ⟨rfl, .refl heap⟩
  | denied _ _ answer =>
    have asked := heap.spends_request
    rw [answer] at asked
    exact ⟨rfl, asked⟩

/-! ### Several stacks -/

/-- Several stacks were granted one after the other, some of them in new blocks. -/
structure Grants (pool : StackPool) (heap : Heap) (taken fresh : List Stack) (pool' : StackPool)
    (heap' : Heap) : Prop where
  limit : pool'.limit = pool.limit
  inUse : pool'.inUse = pool.inUse + .ofNat taken.length
  allocated : pool'.allocated = pool.allocated + .ofNat fresh.length
  deallocated : pool'.deallocated = pool.deallocated
  /-- A stack that is granted was free or is new. -/
  free : (taken ++ pool'.free).Perm (fresh ++ pool.free)
  /-- New stacks lie in blocks that nobody has had. -/
  blocks : fresh.map (·.block) = List.range' heap.nextBlock fresh.length
  nextBlock : heap'.nextBlock = heap.nextBlock + fresh.length
  answers : heap'.answers <:+ heap.answers
  sorted : pool.Sorted → pool'.Sorted

private theorem add_ofNat_succ (count : UInt64) (n : Nat) :
    count + .ofNat n + 1 = count + .ofNat (n + 1) := by
  rw [UInt64.add_assoc, UInt64.ofNat_add]
  rfl

namespace Grants

theorem refl (pool : StackPool) (heap : Heap) : pool.Grants heap [] [] pool heap where
  limit := rfl
  inUse := (UInt64.add_zero _).symm
  allocated := (UInt64.add_zero _).symm
  deallocated := rfl
  free := List.Perm.refl _
  blocks := rfl
  nextBlock := rfl
  answers := List.suffix_refl _
  sorted := id

/-- The host answers more requests, and no stack is granted. -/
theorem spends (h : pool.Grants heap taken fresh pool' heap') (asked : heap'.Spends heap'') :
    pool.Grants heap taken fresh pool' heap'' :=
  { h with
    nextBlock := asked.nextBlock.trans h.nextBlock
    answers := asked.answers.trans h.answers }

/-- The host answered some requests before. -/
theorem of_spends (asked : heap.Spends heap') (h : pool.Grants heap' taken fresh pool' heap'') :
    pool.Grants heap taken fresh pool' heap'' :=
  { h with
    blocks := asked.nextBlock ▸ h.blocks
    nextBlock := asked.nextBlock ▸ h.nextBlock
    answers := h.answers.trans asked.answers }

/-- Another stack is granted. -/
theorem snoc (h : pool.Grants heap taken fresh pool' heap')
    (granted : pool'.allocate heap' sizeClass = (.ok stack, pool'', heap'')) :
    ∃ fresh', pool.Grants heap (taken ++ [stack]) fresh' pool'' heap'' := by
  have grant := grant_of_allocate granted
  have used : pool''.inUse = pool.inUse + .ofNat (taken ++ [stack]).length := by
    rw [grant.inUse, h.inUse, add_ofNat_succ, List.length_append, List.length_singleton]
  have limit := grant.limit.trans h.limit
  have deallocated := grant.deallocated.trans h.deallocated
  have answers := grant.answers.trans h.answers
  have sorted (before : pool.Sorted) : pool''.Sorted := (grant.sorted (h.sorted before)).1
  rcases grant.origin with ⟨_, front, allocated, same⟩ | ⟨rfl, free, allocated, next⟩
  · refine ⟨fresh, limit, used, allocated.trans h.allocated, deallocated, ?_, h.blocks,
      same.trans h.nextBlock, answers, sorted⟩
    rw [List.append_assoc]
    exact (front.symm.append_left _).trans h.free
  · refine ⟨fresh ++ [⟨heap'.nextBlock, sizeClass⟩], limit, used, ?_, deallocated, ?_, ?_, ?_,
      answers, sorted⟩
    · rw [allocated, h.allocated, add_ofNat_succ, List.length_append, List.length_singleton]
    · rw [free, List.append_assoc, List.append_assoc, List.singleton_append, List.singleton_append]
      exact List.perm_middle.trans ((h.free.cons _).trans List.perm_middle.symm)
    · rw [List.map_append, h.blocks, h.nextBlock, List.length_append, List.length_singleton,
        List.range'_concat]
      simp
    · rw [next, List.length_append, List.length_singleton, ← Nat.add_assoc, ← h.nextBlock]

end Grants

/-- Takes several stacks back, one after the other. -/
def deallocateAll (pool : StackPool) (heap : Heap) : List Stack → StackPool × Heap
  | [] => (pool, heap)
  | stack :: rest =>
      let (pool, heap) := pool.deallocate heap stack
      pool.deallocateAll heap rest

/-- Stacks were given back, and of these some were lost: for each of them the host refused the room
to keep it. -/
structure TakesBack (pool : StackPool) (heap : Heap) (returned lost : List Stack)
    (pool' : StackPool) (heap' : Heap) : Prop where
  limit : pool'.limit = pool.limit
  inUse : pool'.inUse = pool.inUse - .ofNat returned.length
  allocated : pool'.allocated = pool.allocated
  deallocated : pool'.deallocated = pool.deallocated + .ofNat returned.length
  free : (lost ++ pool'.free).Perm (returned ++ pool.free)
  /-- Every stack is kept but those that are lost. -/
  kept : ∀ stack ∈ returned, stack ∈ pool'.free ∨ stack ∈ lost
  /-- The stack given back last is on top of the free list of its class. -/
  order : ∃ kept : List Stack, kept.Sublist returned ∧ kept.length + lost.length = returned.length ∧
    ∀ sizeClass, pool'.freeStacks sizeClass =
      (kept.filter (·.sizeClass = sizeClass)).reverse ++ pool.freeStacks sizeClass
  among : lost.Sublist returned
  spends : heap.Spends heap'
  refused : lost.length + heap'.refusals = heap.refusals
  sorted : pool.Sorted → pool'.Sorted

namespace TakesBack

theorem refl (pool : StackPool) (heap : Heap) : pool.TakesBack heap [] [] pool heap where
  limit := rfl
  inUse := (UInt64.sub_zero _).symm
  allocated := rfl
  deallocated := (UInt64.add_zero _).symm
  free := List.Perm.refl _
  kept := nofun
  order := ⟨[], List.Sublist.refl _, rfl, fun _ => rfl⟩
  among := List.Sublist.refl _
  spends := .refl heap
  refused := Nat.zero_add _
  sorted := id

/-- A host that never fails gives room for every stack. -/
theorem lost_eq_nil (h : pool.TakesBack heap returned lost pool' heap') (never : heap.NeverFails) :
    lost = [] := by
  have refused := h.refused
  rw [never.refusals_eq] at refused
  exact List.eq_nil_of_length_eq_zero (Nat.eq_zero_of_add_eq_zero_right refused)

/-- Where nothing is lost every stack goes on top of the free list of its class. -/
theorem freeStacks_of_kept (h : pool.TakesBack heap returned [] pool' heap')
    (sizeClass : SizeClass) :
    pool'.freeStacks sizeClass =
      (returned.filter (·.sizeClass = sizeClass)).reverse ++ pool.freeStacks sizeClass := by
  obtain ⟨kept, among, count, lists⟩ := h.order
  rw [lists, among.eq_of_length count]

/-- More stacks are given back. -/
theorem trans {more' : List Stack} (first : pool.TakesBack heap returned lost pool' heap')
    (second : pool'.TakesBack heap' more more' pool'' heap'') :
    pool.TakesBack heap (returned ++ more) (lost ++ more') pool'' heap'' where
  limit := second.limit.trans first.limit
  inUse := by
    rw [second.inUse, first.inUse, List.length_append, UInt64.ofNat_add]
    grind
  allocated := second.allocated.trans first.allocated
  deallocated := by
    rw [second.deallocated, first.deallocated, List.length_append, UInt64.ofNat_add,
      UInt64.add_assoc]
  free := by
    have inner := (second.free.append_left lost).trans (List.perm_append_comm_assoc ..)
    rw [List.append_assoc, List.append_assoc]
    exact inner.trans ((first.free.append_left more).trans (List.perm_append_comm_assoc ..))
  kept := by
    intro stack member
    rcases List.mem_append.mp member with earlier | later
    · rcases first.kept stack earlier with free | gone
      · have there : stack ∈ more' ++ pool''.free :=
          second.free.mem_iff.mpr (List.mem_append_right _ free)
        exact (List.mem_append.mp there).symm.imp_right (List.mem_append_right _)
      · exact .inr (List.mem_append_left _ gone)
    · exact (second.kept stack later).imp_right (List.mem_append_right _)
  order := by
    obtain ⟨early, among, count, lists⟩ := first.order
    obtain ⟨late, among', count', lists'⟩ := second.order
    refine ⟨early ++ late, among.append among', ?_, fun sizeClass => ?_⟩
    · simp only [List.length_append]
      omega
    · rw [lists', lists, List.filter_append, List.reverse_append, List.append_assoc]
  among := first.among.append second.among
  spends := first.spends.trans second.spends
  refused := by
    rw [List.length_append, ← first.refused, ← second.refused, Nat.add_assoc]
  sorted := second.sorted ∘ first.sorted

end TakesBack

/-- A stack is put on its free list, or it is lost and the list stays as it was. -/
private theorem takesBack_of_list (kept : List Stack) (list : FreeList)
    (entries : list.entries = kept ++ pool.freeStacks stack.sizeClass)
    (either : kept ++ lost = [stack]) (spends : heap.Spends heap')
    (refused : lost.length + heap'.refusals = heap.refusals) :
    pool.TakesBack heap [stack] lost
      { pool.setList stack.sizeClass list with
        deallocated := pool.deallocated + 1
        inUse := pool.inUse - 1 } heap' := by
  have lists (other : SizeClass) :
      freeStacks
          { pool.setList stack.sizeClass list with
            deallocated := pool.deallocated + 1
            inUse := pool.inUse - 1 } other =
        if stack.sizeClass = other then kept ++ pool.freeStacks other
        else pool.freeStacks other := by
    refine (congrArg FreeList.entries (pool.list_setList stack.sizeClass other list)).trans ?_
    split
    · subst other
      exact entries
    · rfl
  -- The stacks that are kept stand in front of those that were free.
  have front := free_perm_of_prepend stack.sizeClass kept lists
  have within : ∀ other ∈ kept ++ lost, other = stack := by
    rw [either]
    exact fun _ => List.mem_singleton.mp
  refine ⟨rfl, rfl, rfl, rfl, ?_, ?_, ⟨kept, ?_, ?_, fun other => ?_⟩, ?_, spends, refused,
    fun sorted other free member => ?_⟩
  · rw [← either]
    have apart := (front.append_left lost).trans (List.perm_append_comm_assoc ..)
    rwa [← List.append_assoc] at apart
  · intro other member
    rw [← either] at member
    refine (List.mem_append.mp member).imp_left fun there => ?_
    exact front.mem_iff.mpr (List.mem_append_left _ there)
  · rw [← either]
    exact List.sublist_append_left _ _
  · rw [← either, List.length_append]
  · rw [lists]
    rcases List.append_eq_singleton_iff.mp either with ⟨rfl, _⟩ | ⟨rfl, _⟩
    · simp
    · by_cases same : stack.sizeClass = other <;> simp [same]
  · rw [← either]
    exact List.sublist_append_right _ _
  · rw [lists] at member
    split at member
    · rename_i same
      rcases List.mem_append.mp member with there | there
      · rw [within free (List.mem_append_left _ there), same]
      · exact sorted _ _ there
    · exact sorted _ _ member

/-- A stack that is given back is free, or lost if the host refuses the room to keep it. -/
theorem takesBack_one (pool : StackPool) (heap : Heap) (stack : Stack) :
    ∃ lost, pool.TakesBack heap [stack] lost (pool.deallocate heap stack).1
      (pool.deallocate heap stack).2 := by
  have spends := heap.spends_grow (pool.list stack.sizeClass).entries.length
    (pool.list stack.sizeClass).capacity
  have refused := heap.refusals_grow (pool.list stack.sizeClass).entries.length
    (pool.list stack.sizeClass).capacity
  unfold deallocate FreeList.push
  rcases answer : heap.grow (pool.list stack.sizeClass).entries.length
    (pool.list stack.sizeClass).capacity with ⟨_ | capacity, heap'⟩
  all_goals rw [answer] at spends refused
  · exact ⟨[stack], takesBack_of_list [] _ rfl rfl spends refused⟩
  · exact ⟨[], takesBack_of_list [stack] _ rfl rfl spends refused⟩

theorem deallocateAll_append (pool : StackPool) (heap : Heap) (some more : List Stack) :
    pool.deallocateAll heap (some ++ more) =
      (pool.deallocateAll heap some).1.deallocateAll (pool.deallocateAll heap some).2 more := by
  induction some generalizing pool heap with
  | nil => rfl
  | cons stack rest ih => exact ih _ _

/-- Stacks that are given back are free, but for those that the host gave no room to keep. -/
theorem takesBack (pool : StackPool) (heap : Heap) (returned : List Stack) :
    ∃ lost, pool.TakesBack heap returned lost (pool.deallocateAll heap returned).1
      (pool.deallocateAll heap returned).2 := by
  induction returned generalizing pool heap with
  | nil => exact ⟨[], .refl pool heap⟩
  | cons stack rest ih =>
    obtain ⟨gone, first⟩ := pool.takesBack_one heap stack
    obtain ⟨others, second⟩ := ih (pool.deallocate heap stack).1 (pool.deallocate heap stack).2
    exact ⟨gone ++ others, first.trans second⟩

/-- The stacks that a pool had granted are back in its free lists, but for those that it freed since
the host gave no room to keep them. Nothing else is different but the counters of what went through
the pool, and new blocks that it keeps. -/
structure Recovers (pool : StackPool) (heap : Heap) (taken fresh lost : List Stack)
    (pool' : StackPool) (heap' : Heap) : Prop where
  limit : pool'.limit = pool.limit
  inUse : pool'.inUse = pool.inUse
  allocated : pool'.allocated = pool.allocated + .ofNat fresh.length
  deallocated : pool'.deallocated = pool.deallocated + .ofNat taken.length
  returned : ∀ stack ∈ taken, stack ∈ pool'.free ∨ stack ∈ lost
  among : lost.Sublist taken
  free : (lost ++ pool'.free).Perm (fresh ++ pool.free)
  blocks : fresh.map (·.block) = List.range' heap.nextBlock fresh.length
  nextBlock : heap'.nextBlock = heap.nextBlock + fresh.length
  answers : heap'.answers <:+ heap.answers
  /-- The host refused something for every stack that was freed. -/
  refused : lost.length + heap'.refusals ≤ heap.refusals
  sorted : pool.Sorted → pool'.Sorted

/-- No stack is lost where the host refuses nothing. -/
theorem Recovers.lost_eq_nil (h : pool.Recovers heap taken fresh lost pool' heap')
    (never : heap.NeverFails) : lost = [] := by
  have refused := h.refused
  rw [never.refusals_eq] at refused
  exact List.eq_nil_of_length_eq_zero (Nat.eq_zero_of_add_eq_zero_right (Nat.le_zero.mp refused))

/-- A pool that gets back all it had granted recovers. -/
theorem Grants.recovers (h : pool.Grants heap taken fresh pool' heap')
    (back : pool'.TakesBack heap' taken lost pool'' heap'') :
    pool.Recovers heap taken fresh lost pool'' heap'' where
  limit := back.limit.trans h.limit
  inUse := by
    rw [back.inUse, h.inUse]
    exact UInt64.add_sub_cancel _ _
  allocated := back.allocated.trans h.allocated
  deallocated := by rw [back.deallocated, h.deallocated]
  returned := back.kept
  among := back.among
  free := back.free.trans h.free
  blocks := h.blocks
  nextBlock := back.spends.nextBlock.trans h.nextBlock
  answers := back.spends.answers.trans h.answers
  refused := Nat.le_trans (Nat.le_of_eq back.refused) (h.answers.sublist.count_le none)
  sorted := back.sorted ∘ h.sorted

end StackPool

end ThreadScheduler
