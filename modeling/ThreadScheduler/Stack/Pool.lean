/-
Module: ThreadScheduler.Stack.Pool
Purpose: The pool from which kernel stacks are granted. A stack given back is kept and granted again
  before the heap is asked for a new block of its class; a pool may limit the stacks in use.
Main exports: FreeList, StackPool, StackPool.allocate, StackPool.deallocate
-/
import ThreadScheduler.Error
import ThreadScheduler.Heap
import ThreadScheduler.Stack.Basic

namespace ThreadScheduler

/-- Stacks of one class that were given back. -/
structure FreeList where
  /-- The stacks, the one last given back first. -/
  entries : List Stack := []
  /-- The stacks for which there is room. -/
  capacity : Nat := 0
  deriving DecidableEq, Repr, Inhabited

/-- Keeps a stack. If the list cannot grow the stack is freed instead. -/
def FreeList.push (list : FreeList) (heap : Heap) (stack : Stack) : FreeList × Heap :=
  match heap.grow list.entries.length list.capacity with
  | (some capacity, heap) => ({ entries := stack :: list.entries, capacity }, heap)
  | (none, heap) => (list, heap)

/-- Stacks that were given back, and the counters of a pool. The counters are 64-bit numbers and
return to zero after the last one. -/
structure StackPool where
  /-- The stacks that may be in use at once. -/
  limit : UInt64
  /-- One list of free stacks for each size class. -/
  lists : Vector FreeList 4 := .replicate 4 {}
  /-- Blocks taken from the heap. -/
  allocated : UInt64 := 0
  /-- Stacks given back. -/
  deallocated : UInt64 := 0
  /-- Stacks granted less stacks given back. -/
  inUse : UInt64 := 0
  deriving DecidableEq, Repr, Inhabited

namespace StackPool

/-- The limit of a pool that is not limited. -/
def unlimited : UInt64 := .ofNat (UInt64.size - 1)

/-- The free list of a class. -/
def list (pool : StackPool) (sizeClass : SizeClass) : FreeList := pool.lists[sizeClass.index]

/-- Replaces the free list of a class. -/
def setList (pool : StackPool) (sizeClass : SizeClass) (list : FreeList) : StackPool :=
  { pool with lists := pool.lists.set sizeClass.index list }

/-- Grants a stack of a class: the one last given back, else one in a new block. Refused when the
limit is reached, and when the host has no new block. -/
def allocate (pool : StackPool) (heap : Heap) (sizeClass : SizeClass) :
    Except MemoryError Stack × StackPool × Heap :=
  if pool.limit ≤ pool.inUse then (.error .outOfMemory, pool, heap)
  else
    let list := pool.list sizeClass
    match list.entries with
    | stack :: entries =>
        (.ok stack,
          { pool.setList sizeClass { list with entries } with inUse := pool.inUse + 1 }, heap)
    | [] =>
        match heap.newBlock with
        | (some block, heap) =>
            (.ok ⟨block, sizeClass⟩,
              { pool with allocated := pool.allocated + 1, inUse := pool.inUse + 1 }, heap)
        | (none, heap) => (.error .outOfMemory, pool, heap)

/-- Takes a stack back, for later use if there is room for it. -/
def deallocate (pool : StackPool) (heap : Heap) (stack : Stack) : StackPool × Heap :=
  let (list, heap) := (pool.list stack.sizeClass).push heap stack
  ({ pool.setList stack.sizeClass list with
      deallocated := pool.deallocated + 1
      inUse := pool.inUse - 1 }, heap)

end StackPool

end ThreadScheduler
