/-
Module: ThreadScheduler.Proofs.StackPools
Purpose: Several stack pools over one heap. A stack that a pool grants may be given back to another
  pool, which then counts it although it never granted it. Every stack is at each time in use or in
  one free list of one pool, and a free list is served from its top.
Main exports: GrantedStack, StackPools, StackPools.perform, StackPools.Exchange.Effect,
  StackPools.returnedTo, StackPools.GrantsOnce, StackPools.grantsOnce
-/
import Mathlib.Data.List.Perm.Basic
import ThreadScheduler.Proofs.Exchanges
import ThreadScheduler.Proofs.StackAccounts

namespace ThreadScheduler

/-- A stack in use, and the number of the pool that granted it. -/
structure GrantedStack where
  pool : Nat
  stack : Stack
  deriving DecidableEq, Repr

/-- Several pools over one heap, and the stacks in use. -/
structure StackPools where
  heap : Heap := {}
  pools : List StackPool
  granted : List GrantedStack := []
  deriving DecidableEq, Repr

namespace StackPools

/-- New pools with given limits. -/
def ofLimits (heap : Heap) (limits : List UInt64) : StackPools where
  heap
  pools := limits.map fun limit => { limit }

/-- What is asked of a pool. -/
inductive Action where
  | allocate (pool : Nat) (sizeClass : SizeClass)
  /-- A stack in use is given back to a pool, maybe not to the one that granted it. -/
  | deallocate (granted : GrantedStack) (pool : Nat)
  deriving DecidableEq, Repr

/-- What is heard back. -/
inductive Answer where
  /-- A stack is granted, in a fresh block or not. -/
  | granted (stack : Stack) (fresh : Bool)
  | refused (error : MemoryError)
  | returned
  /-- There is no such pool, or the stack is not in use. -/
  | impossible
  deriving DecidableEq, Repr

/-- Asks something of a pool. -/
def perform (d : StackPools) : Action → Answer × StackPools
  | .allocate i sizeClass =>
      match d.pools[i]? with
      | none => (.impossible, d)
      | some pool =>
          match pool.allocate d.heap sizeClass with
          | (.error error, pool, heap) =>
              (.refused error, { d with heap, pools := d.pools.set i pool })
          | (.ok stack, pool, heap) =>
              (.granted stack (heap.nextBlock ≠ d.heap.nextBlock),
                { heap, pools := d.pools.set i pool, granted := ⟨i, stack⟩ :: d.granted })
  | .deallocate granted i =>
      match d.pools[i]? with
      | none => (.impossible, d)
      | some pool =>
          if granted ∈ d.granted then
            let (pool, heap) := pool.deallocate d.heap granted.stack
            (.returned,
              { heap, pools := d.pools.set i pool, granted := d.granted.erase granted })
          else (.impossible, d)

/-- Something that is asked of a pool. -/
abbrev Exchange := ThreadScheduler.Exchange StackPools Action Answer

/-- Something is asked of a pool. -/
def exchange (d : StackPools) (action : Action) : Exchange := .of perform d action

/-- The pools after several actions. -/
def after (d : StackPools) (actions : List Action) : StackPools :=
  Exchange.stateAfter perform d actions

/-- All that is asked of the pools, the first exchange first. -/
def exchanges (d : StackPools) (actions : List Action) : List Exchange :=
  Exchange.record perform d actions

/-- What can come of it when something is asked of a pool, and the host refuses nothing. -/
inductive Exchange.Effect (x : Exchange) : Prop where
  | refused {i : Nat} {sizeClass : SizeClass} {pool : StackPool}
      (action : x.action = .allocate i sizeClass) (answer : x.answer = .refused .outOfMemory)
      (found : x.before.pools[i]? = some pool) (full : pool.limit ≤ pool.inUse)
      (after : x.after = x.before)
  /-- The stack on top of the free list is granted. -/
  | reused {i : Nat} {sizeClass : SizeClass} {pool : StackPool} {stack : Stack} {rest : List Stack}
      (action : x.action = .allocate i sizeClass) (answer : x.answer = .granted stack false)
      (found : x.before.pools[i]? = some pool) (room : pool.inUse < pool.limit)
      (top : pool.freeStacks sizeClass = stack :: rest)
      (after : x.after =
        { x.before with
          pools := x.before.pools.set i (pool.popped sizeClass rest)
          granted := ⟨i, stack⟩ :: x.before.granted })
  | created {i : Nat} {sizeClass : SizeClass} {pool : StackPool} {heap : Heap}
      (action : x.action = .allocate i sizeClass)
      (answer : x.answer = .granted ⟨x.before.heap.nextBlock, sizeClass⟩ true)
      (found : x.before.pools[i]? = some pool) (room : pool.inUse < pool.limit)
      (bare : pool.freeStacks sizeClass = [])
      (next : heap.nextBlock = x.before.heap.nextBlock + 1) (never : heap.NeverFails)
      (after : x.after =
        { heap
          pools := x.before.pools.set i pool.extended
          granted := ⟨i, x.before.heap.nextBlock, sizeClass⟩ :: x.before.granted })
  | returned {i : Nat} {granted : GrantedStack} {pool pool' : StackPool} {heap : Heap}
      (action : x.action = .deallocate granted i) (answer : x.answer = .returned)
      (found : x.before.pools[i]? = some pool) (used : granted ∈ x.before.granted)
      (back : pool.TakesBack x.before.heap [granted.stack] [] pool' heap)
      (after : x.after =
        { heap
          pools := x.before.pools.set i pool'
          granted := x.before.granted.erase granted })
  | impossible (answer : x.answer = .impossible)
      (cause : (∃ i sizeClass, x.action = .allocate i sizeClass ∧ x.before.pools.length ≤ i) ∨
        ∃ granted i, x.action = .deallocate granted i ∧
          (x.before.pools.length ≤ i ∨ granted ∉ x.before.granted))
      (after : x.after = x.before)

variable {d : StackPools} {x : Exchange} {i first : Nat} {pool pool' : StackPool}
  {sizeClass : SizeClass}

/-- Putting a pool where it is changes nothing. -/
theorem set_self (found : d.pools[i]? = some pool) : d.pools.set i pool = d.pools := by
  obtain ⟨bound, rfl⟩ := List.getElem?_eq_some_iff.mp found
  exact List.set_getElem_self bound

theorem effect_allocate (never : d.heap.NeverFails) (i : Nat) (sizeClass : SizeClass) :
    (d.exchange (.allocate i sizeClass)).Effect := by
  cases found : d.pools[i]? with
  | none =>
    have missing := List.getElem?_eq_none_iff.mp found
    have performed : d.perform (.allocate i sizeClass) = (.impossible, d) := by
      simp [perform, found]
    rw [exchange, Exchange.of_eq performed]
    exact .impossible rfl (.inl ⟨i, sizeClass, rfl, missing⟩) rfl
  | some pool =>
    have allocates := pool.allocates d.heap sizeClass
    generalize answered : pool.allocate d.heap sizeClass = answer at allocates
    cases allocates with
    | refuses full =>
      have performed : d.perform (.allocate i sizeClass) = (.refused .outOfMemory, d) := by
        simp [perform, found, answered, set_self found]
      rw [exchange, Exchange.of_eq performed]
      exact .refused rfl rfl found full rfl
    | denied _ _ answer =>
      exact absurd never (Heap.not_neverFails_of_request (congrArg Prod.fst answer))
    | @reuses stack rest room top =>
      have performed : d.perform (.allocate i sizeClass) = (.granted stack false, { d with
          pools := d.pools.set i (pool.popped sizeClass rest)
          granted := ⟨i, stack⟩ :: d.granted }) := by
        simp [perform, found, answered]
      rw [exchange, Exchange.of_eq performed]
      exact .reused rfl rfl found room top rfl
    | @creates heap spare room bare answer =>
      have asked := d.heap.spends_request
      rw [answer] at asked
      have performed : d.perform (.allocate i sizeClass) =
          (.granted ⟨d.heap.nextBlock, sizeClass⟩ true,
            { heap := { heap with nextBlock := d.heap.nextBlock + 1 }
              pools := d.pools.set i pool.extended
              granted := ⟨i, d.heap.nextBlock, sizeClass⟩ :: d.granted }) := by
        simp [perform, found, answered]
      rw [exchange, Exchange.of_eq performed]
      refine .created rfl rfl found room bare rfl ?_ rfl
      exact never.of_suffix asked.answers

theorem effect_deallocate (never : d.heap.NeverFails) (granted : GrantedStack) (i : Nat) :
    (d.exchange (.deallocate granted i)).Effect := by
  cases found : d.pools[i]? with
  | none =>
    have missing := List.getElem?_eq_none_iff.mp found
    have performed : d.perform (.deallocate granted i) = (.impossible, d) := by
      simp [perform, found]
    rw [exchange, Exchange.of_eq performed]
    exact .impossible rfl (.inr ⟨granted, i, rfl, .inl missing⟩) rfl
  | some pool =>
    by_cases used : granted ∈ d.granted
    · obtain ⟨lost, back⟩ := pool.takesBack_one d.heap granted.stack
      obtain rfl := back.lost_eq_nil never
      have performed : d.perform (.deallocate granted i) = (.returned,
          { heap := (pool.deallocate d.heap granted.stack).2
            pools := d.pools.set i (pool.deallocate d.heap granted.stack).1
            granted := d.granted.erase granted }) := by
        simp [perform, found, used]
      rw [exchange, Exchange.of_eq performed]
      exact .returned rfl rfl found used back rfl
    · have performed : d.perform (.deallocate granted i) = (.impossible, d) := by
        simp [perform, found, used]
      rw [exchange, Exchange.of_eq performed]
      exact .impossible rfl (.inr ⟨granted, i, rfl, .inr used⟩) rfl

/-- Whatever is asked of a pool, one of these things comes of it. -/
theorem effect (never : d.heap.NeverFails) (action : Action) : (d.exchange action).Effect := by
  cases action with
  | allocate i sizeClass => exact effect_allocate never i sizeClass
  | deallocate granted i => exact effect_deallocate never granted i

/-! ### Where the stacks are -/

/-- The stack that is made in a fresh block. -/
def Exchange.made (x : Exchange) : Option Stack :=
  match x.answer with
  | .granted stack true => some stack
  | _ => none

/-- The stacks in the free lists of all pools. -/
def free (d : StackPools) : List Stack := d.pools.flatMap (·.free)

/-- Every stack that was made is in use or free, once, and every block that was taken from the heap
holds one. -/
structure Places (d : StackPools) (first : Nat) (made : List Stack) : Prop where
  blocks : made.map (·.block) = List.range' first made.length
  nextBlock : d.heap.nextBlock = first + made.length
  places : (d.granted.map (·.stack) ++ d.free).Perm made
  sorted : ∀ pool ∈ d.pools, pool.Sorted

/-- Stacks that leave a pool, and stacks that come to it, leave and come to the pools together. -/
theorem flatMap_free_set (before after : List Stack) (found : d.pools[i]? = some pool)
    (new : StackPool) (same : (before ++ pool.free).Perm (after ++ new.free)) :
    (before ++ d.free).Perm (after ++ (d.pools.set i new).flatMap (·.free)) := by
  obtain ⟨bound, rfl⟩ := List.getElem?_eq_some_iff.mp found
  have old := (List.getElem_cons_eraseIdx_perm bound).symm.flatMap_right (·.free)
  have set := (List.set_perm_cons_eraseIdx bound new).flatMap_right (·.free)
  rw [List.flatMap_cons] at old set
  have moved := same.append_right ((d.pools.eraseIdx i).flatMap (·.free))
  rw [List.append_assoc, List.append_assoc] at moved
  exact (old.append_left before).trans (moved.trans (set.symm.append_left after))

theorem sorted_set (sorted : ∀ pool ∈ d.pools, pool.Sorted) {new : StackPool} (here : new.Sorted) :
    ∀ pool ∈ d.pools.set i new, pool.Sorted := by
  intro pool member
  rcases List.mem_or_eq_of_mem_set member with other | rfl
  · exact sorted pool other
  · exact here

theorem Exchange.Effect.neverFails (effect : x.Effect) (never : x.before.heap.NeverFails) :
    x.after.heap.NeverFails := by
  cases effect with
  | refused _ _ _ _ after | impossible _ _ after | reused _ _ _ _ _ after => rwa [after]
  | created _ _ _ _ _ _ later after => rwa [after]
  | returned _ _ _ _ back after =>
    rw [after]
    exact back.spends.neverFails never

/-- Whatever is asked of a pool, every stack stays in use or free, or goes from one to the other. -/
theorem Exchange.Effect.places {made : List Stack} (effect : x.Effect)
    (h : x.before.Places first made) : x.after.Places first (made ++ x.made.toList) := by
  cases effect with
  | refused _ answer _ _ after | impossible answer _ after =>
    rw [after]
    simpa [Exchange.made, answer] using h
  -- A free stack becomes a granted one.
  | @reused i sizeClass pool stack rest _ answer found _ top after =>
    have none_made : made ++ x.made.toList = made := by simp [Exchange.made, answer]
    have taken : pool.free.Perm (stack :: (pool.popped sizeClass rest).free) :=
      StackPool.free_perm_of_popped top
    have sorted := h.sorted pool (List.mem_of_getElem? found)
    rw [after, none_made]
    refine ⟨h.blocks, h.nextBlock, ?_, sorted_set h.sorted (sorted.popped top)⟩
    refine (flatMap_free_set _ _ found _ ?_).symm.trans h.places
    exact (taken.append_left _).trans List.perm_middle
  | @created i sizeClass pool heap _ answer found _ _ next _ after =>
    have one_made : made ++ x.made.toList = made ++ [⟨x.before.heap.nextBlock, sizeClass⟩] := by
      simp [Exchange.made, answer]
    have sorted := h.sorted pool (List.mem_of_getElem? found)
    rw [after, one_made]
    refine ⟨?_, ?_, ?_, sorted_set h.sorted sorted⟩
    · rw [List.map_append, h.blocks, List.length_append, List.length_singleton, List.range'_concat,
        h.nextBlock]
      simp
    · rw [next, h.nextBlock, List.length_append, List.length_singleton, Nat.add_assoc]
    · have moved := flatMap_free_set (x.before.granted.map (·.stack)) _ found pool.extended
        (List.Perm.refl _)
      exact ((moved.symm.trans h.places).cons _).trans (List.perm_append_singleton _ _).symm
  -- A granted stack becomes a free one, maybe of another pool.
  | @returned i granted pool pool' heap _ answer found used back after =>
    have none_made : made ++ x.made.toList = made := by simp [Exchange.made, answer]
    have sorted := h.sorted pool (List.mem_of_getElem? found)
    rw [after, none_made]
    refine ⟨h.blocks, back.spends.nextBlock.trans h.nextBlock, ?_,
      sorted_set h.sorted (back.sorted sorted)⟩
    refine (flatMap_free_set _ _ found _ ?_).symm.trans h.places
    have used_perm := (List.perm_cons_erase used).map (·.stack)
    have moved := back.free.append_left ((x.before.granted.erase granted).map (·.stack))
    rw [List.nil_append, List.singleton_append] at moved
    exact (used_perm.append_right pool.free).trans (List.perm_middle.symm.trans moved.symm)

/-! ### Free lists -/

/-- What an exchange does to a free list of a pool: a stack that is given back is pushed, and one
that is granted again is popped. -/
def Exchange.restack (i : Nat) (sizeClass : SizeClass) (list : List Stack) (x : Exchange) :
    List Stack :=
  match x.action, x.answer with
  | .deallocate granted j, .returned =>
      if j = i ∧ granted.stack.sizeClass = sizeClass then granted.stack :: list else list
  | .allocate j wanted, .granted _ false => if j = i ∧ wanted = sizeClass then list.tail else list
  | _, _ => list

/-- The stacks of a class that were given back to a pool and not granted again, the one last given
back first. -/
def returnedTo (i : Nat) (sizeClass : SizeClass) (exchanges : List Exchange) : List Stack :=
  exchanges.foldl (Exchange.restack i sizeClass) []

theorem getElem?_set_cases {j : Nat} {new : StackPool} (found : d.pools[j]? = some pool)
    (found' : (d.pools.set j new)[i]? = some pool') :
    i = j ∧ pool' = new ∨ j ≠ i ∧ d.pools[i]? = some pool' := by
  obtain ⟨bound, _⟩ := List.getElem?_eq_some_iff.mp found
  by_cases same : j = i
  · subst same
    rw [List.getElem?_set_self bound] at found'
    exact .inl ⟨rfl, (Option.some.inj found').symm⟩
  · rw [List.getElem?_set_ne same] at found'
    exact .inr ⟨same, found'⟩

/-- Every free list holds what the exchanges left in it. -/
theorem Exchange.Effect.freeStacks {list : List Stack} (effect : x.Effect)
    (follows : ∀ pool, x.before.pools[i]? = some pool → pool.freeStacks sizeClass = list)
    (found : x.after.pools[i]? = some pool) :
    pool.freeStacks sizeClass = x.restack i sizeClass list := by
  cases effect with
  | refused action answer _ _ after =>
    rw [after] at found
    simpa [Exchange.restack, action, answer] using follows pool found
  | impossible answer _ after =>
    rw [after] at found
    simpa [Exchange.restack, answer] using follows pool found
  | @reused j wanted kept stack rest action answer found₀ room top after =>
    simp only [after] at found
    rcases getElem?_set_cases found₀ found with ⟨rfl, rfl⟩ | ⟨other, same⟩
    · rw [StackPool.freeStacks_popped, follows kept found₀]
      by_cases asked : wanted = sizeClass
      · have here : list = stack :: rest := by rw [← follows kept found₀, ← asked, top]
        simp [Exchange.restack, action, answer, asked, here]
      · simp [Exchange.restack, action, answer, asked]
    · simpa [Exchange.restack, action, answer, other] using follows pool same
  | created action answer found₀ room bare _ _ after =>
    simp only [after] at found
    rcases getElem?_set_cases found₀ found with ⟨rfl, rfl⟩ | ⟨other, same⟩
    · have unchanged := follows _ found₀
      simp only [Exchange.restack, action, answer]
      exact unchanged
    · simpa [Exchange.restack, action, answer, other] using follows pool same
  | @returned j granted kept pool' heap action answer found₀ used back after =>
    simp only [after] at found
    rcases getElem?_set_cases found₀ found with ⟨rfl, rfl⟩ | ⟨other, same⟩
    · rw [back.freeStacks_of_kept, follows kept found₀]
      by_cases asked : granted.stack.sizeClass = sizeClass <;>
        simp [Exchange.restack, action, answer, asked]
    · simpa [Exchange.restack, action, answer, other] using follows pool same

/-! ### Counters -/

/-- A pool grants a stack. -/
def Exchange.grants (i : Nat) (x : Exchange) : Bool :=
  match x.action, x.answer with
  | .allocate j _, .granted _ _ => j = i
  | _, _ => false

/-- A pool grants a stack in a fresh block. -/
def Exchange.creates (i : Nat) (x : Exchange) : Bool :=
  match x.action, x.answer with
  | .allocate j _, .granted _ true => j = i
  | _, _ => false

/-- A pool gets a stack back. -/
def Exchange.returns (i : Nat) (x : Exchange) : Bool :=
  match x.action, x.answer with
  | .deallocate _ j, .returned => j = i
  | _, _ => false

/-- The counters of a pool count what was done, as far as 64-bit numbers go. -/
structure Counts (pool : StackPool) (i : Nat) (exchanges : List Exchange) : Prop where
  inUse : pool.inUse =
    .ofNat (exchanges.countP (·.grants i)) - .ofNat (exchanges.countP (·.returns i))
  allocated : pool.allocated = .ofNat (exchanges.countP (·.creates i))
  deallocated : pool.deallocated = .ofNat (exchanges.countP (·.returns i))

theorem Exchange.Effect.counts {earlier : List Exchange} (effect : x.Effect)
    (counts : ∀ pool, x.before.pools[i]? = some pool → Counts pool i earlier)
    (found : x.after.pools[i]? = some pool) : Counts pool i (earlier ++ [x]) := by
  -- An exchange that concerns another pool, or nothing, is not counted.
  have others (kept : x.before.pools[i]? = some pool) (no_grant : x.grants i = false)
      (no_return : x.returns i = false) (no_block : x.creates i = false) :
      Counts pool i (earlier ++ [x]) := by
    constructor <;> simp [no_grant, no_return, no_block, (counts pool kept).inUse,
      (counts pool kept).allocated, (counts pool kept).deallocated]
  cases effect with
  | refused action answer _ _ after =>
    rw [after] at found
    exact others found (by simp [Exchange.grants, action, answer])
      (by simp [Exchange.returns, action]) (by simp [Exchange.creates, action, answer])
  | impossible answer _ after =>
    rw [after] at found
    exact others found (by simp [Exchange.grants, answer]) (by simp [Exchange.returns, answer])
      (by simp [Exchange.creates, answer])
  | reused action answer found₀ _ _ after =>
    simp only [after] at found
    rcases getElem?_set_cases found₀ found with ⟨rfl, rfl⟩ | ⟨other, same⟩
    · have old := counts _ found₀
      constructor
      · simp [StackPool.popped, Exchange.grants, Exchange.returns, action, answer, old.inUse,
          UInt64.ofNat_add]
        grind
      · exact (old.allocated).trans (by simp [Exchange.creates, action, answer])
      · exact (old.deallocated).trans (by simp [Exchange.returns, action, answer])
    · exact others same (by simp [Exchange.grants, action, answer, other])
        (by simp [Exchange.returns, action])
        (by simp [Exchange.creates, action, answer])
  | created action answer found₀ _ _ _ _ after =>
    simp only [after] at found
    rcases getElem?_set_cases found₀ found with ⟨rfl, rfl⟩ | ⟨other, same⟩
    · have old := counts _ found₀
      constructor
      · simp [StackPool.extended, Exchange.grants, Exchange.returns, action, answer, old.inUse,
          UInt64.ofNat_add]
        grind
      · simp [StackPool.extended, Exchange.creates, action, answer, old.allocated,
          UInt64.ofNat_add]
      · simp [StackPool.extended, Exchange.returns, action, answer, old.deallocated]
    · exact others same (by simp [Exchange.grants, action, answer, other])
        (by simp [Exchange.returns, action])
        (by simp [Exchange.creates, action, answer, other])
  | returned action answer found₀ _ back after =>
    simp only [after] at found
    rcases getElem?_set_cases found₀ found with ⟨rfl, rfl⟩ | ⟨other, same⟩
    · have old := counts _ found₀
      constructor
      · rw [back.inUse, old.inUse]
        simp [Exchange.grants, Exchange.returns, action, answer, UInt64.ofNat_add]
        grind
      · rw [back.allocated, old.allocated]
        simp [Exchange.creates, action, answer]
      · rw [back.deallocated, old.deallocated]
        simp [Exchange.returns, action, answer, UInt64.ofNat_add]
    · exact others same (by simp [Exchange.grants, action])
        (by simp [Exchange.returns, action, answer, other])
        (by simp [Exchange.creates, action])

/-! ### Limits -/

/-- No exchange changes the limit of a pool. -/
theorem Exchange.Effect.limits (effect : x.Effect) :
    x.after.pools.map (·.limit) = x.before.pools.map (·.limit) := by
  have replaced {i : Nat} {pool : StackPool} (new : StackPool)
      (found : x.before.pools[i]? = some pool) (same : new.limit = pool.limit) :
      (x.before.pools.set i new).map (·.limit) = x.before.pools.map (·.limit) := by
    obtain ⟨bound, rfl⟩ := List.getElem?_eq_some_iff.mp found
    have within : i < (x.before.pools.map (·.limit)).length := by simpa using bound
    have placed : (x.before.pools.map (·.limit))[i] = new.limit := by simp [same]
    rw [List.map_set, ← placed, List.set_getElem_self]
  cases effect with
  | refused _ _ _ _ after | impossible _ _ after => rw [after]
  | reused _ _ found _ _ after | created _ _ found _ _ _ _ after =>
    rw [after]
    exact replaced _ found rfl
  | returned _ _ found _ back after =>
    rw [after]
    exact replaced _ found back.limit

/-- The stacks in use that a pool granted. -/
def grantedBy (d : StackPools) (i : Nat) : Nat := d.granted.countP (·.pool = i)

/-- A stack that is given back goes to the pool that granted it. -/
def Exchange.GoesHome (x : Exchange) : Prop :=
  ∀ granted i, x.action = .deallocate granted i → granted.pool = i

/-- A pool knows how many of its stacks are in use, and these are no more than its limit. -/
structure Tallies (pool : StackPool) (used : Nat) : Prop where
  inUse : pool.inUse.toNat = used
  within : used ≤ pool.limit.toNat

theorem Tallies.grant {used : Nat} (h : Tallies pool used) (room : pool.inUse < pool.limit)
    (limit : pool'.limit = pool.limit) (inUse : pool'.inUse = pool.inUse + 1) :
    Tallies pool' (used + 1) where
  inUse := by rw [inUse, StackPool.toNat_add_one room, h.inUse]
  within := by
    rw [limit, ← h.inUse]
    exact UInt64.lt_iff_toNat_lt.mp room

theorem Tallies.takesBack {used : Nat} {heap heap' : Heap} {stack : Stack} {lost : List Stack}
    (h : Tallies pool (used + 1)) (back : pool.TakesBack heap [stack] lost pool' heap') :
    Tallies pool' used where
  inUse := by
    rw [back.inUse]
    exact StackPool.toNat_sub_one h.inUse
  within := back.limit ▸ Nat.le_of_succ_le h.within

theorem Exchange.Effect.tallies (effect : x.Effect) (home : x.GoesHome)
    (tallies : ∀ pool, x.before.pools[i]? = some pool → Tallies pool (x.before.grantedBy i))
    (found : x.after.pools[i]? = some pool) : Tallies pool (x.after.grantedBy i) := by
  cases effect with
  | refused _ _ _ _ after | impossible _ _ after =>
    rw [after] at found ⊢
    exact tallies pool found
  | reused action answer found₀ room _ after | created action answer found₀ room _ _ _ after =>
    simp only [after] at found ⊢
    rcases getElem?_set_cases found₀ found with ⟨rfl, new⟩ | ⟨other, same⟩
    · have one_more : Tallies pool _ :=
        (tallies _ found₀).grant room (by rw [new]; rfl) (by rw [new]; rfl)
      simpa [grantedBy] using one_more
    · simpa [grantedBy, other] using tallies pool same
  | @returned j granted kept _ _ action answer found₀ member back after =>
    obtain rfl := home granted j action
    have counted := (List.perm_cons_erase member).countP_eq (·.pool = i)
    rw [List.countP_cons] at counted
    simp only [after] at found ⊢
    rcases getElem?_set_cases found₀ found with ⟨rfl, new⟩ | ⟨other, same⟩
    · have tallied := tallies kept found₀
      rw [grantedBy, counted, if_pos (by simp)] at tallied
      subst new
      exact tallied.takesBack back
    · have tallied := tallies pool same
      rw [grantedBy, counted, if_neg (by simpa using other)] at tallied
      exact tallied

/-! ### Pools that grant -/

/-- Every stack is in one place at each time, and a pool grants one as long as its counter is below
its limit: the one on top of the free list, or a new one if the list is empty. -/
structure GrantsOnce (d : StackPools) (first : Nat) (limits : List UInt64)
    (exchanges : List Exchange) : Prop where
  /-- Every block that was taken from the heap is made into one stack. -/
  blocks : (exchanges.filterMap Exchange.made).map (·.block) =
    List.range' first (exchanges.filterMap Exchange.made).length
  nextBlock : d.heap.nextBlock = first + (exchanges.filterMap Exchange.made).length
  /-- Every stack that was made is in use or in one free list of one pool, once. -/
  places : (d.granted.map (·.stack) ++ d.free).Perm (exchanges.filterMap Exchange.made)
  sorted : ∀ pool ∈ d.pools, ∀ sizeClass, ∀ stack ∈ pool.freeStacks sizeClass,
    stack.sizeClass = sizeClass
  /-- A free list holds what was given back and not granted again, the stack last given back on
  top. -/
  lists : ∀ i pool, d.pools[i]? = some pool → ∀ sizeClass,
    pool.freeStacks sizeClass = returnedTo i sizeClass exchanges
  limits : d.pools.map (·.limit) = limits
  counts : ∀ i pool, d.pools[i]? = some pool → Counts pool i exchanges
  /-- A stack that is granted is of the class that was asked for and not in use. It is the one on
  top of the free list, or a new one if there is none. -/
  grants : ∀ i pool sizeClass, d.pools[i]? = some pool → pool.inUse < pool.limit →
    ∃ stack fresh, (d.exchange (.allocate i sizeClass)).answer = .granted stack fresh ∧
      stack.sizeClass = sizeClass ∧ stack.block ∉ d.granted.map (·.stack.block) ∧
      if fresh then pool.freeStacks sizeClass = [] ∧ stack.block = d.heap.nextBlock
      else (pool.freeStacks sizeClass).head? = some stack
  refuses : ∀ i pool sizeClass, d.pools[i]? = some pool → pool.limit ≤ pool.inUse →
    d.perform (.allocate i sizeClass) = (.refused .outOfMemory, d)
  /-- A pool to which only its own stacks are given back knows how many of them are in use. -/
  tallies : (∀ x ∈ exchanges, Exchange.GoesHome x) → ∀ i pool, d.pools[i]? = some pool →
    Tallies pool (d.grantedBy i)

theorem perform_allocate_of_full (found : d.pools[i]? = some pool)
    (full : pool.limit ≤ pool.inUse) :
    d.perform (.allocate i sizeClass) = (.refused .outOfMemory, d) := by
  have refused : pool.allocate d.heap sizeClass = (.error .outOfMemory, pool, d.heap) := if_pos full
  simp [perform, found, refused, set_self found]

namespace Places

variable {made : List Stack}

theorem nodup (h : d.Places first made) :
    ((d.granted.map (·.stack) ++ d.free).map (·.block)).Nodup := by
  rw [(h.places.map _).nodup_iff, h.blocks]
  exact List.nodup_range'

/-- A free stack is not in use. -/
theorem not_granted_of_free (h : d.Places first made) (found : d.pools[i]? = some pool)
    {stack : Stack} (free : stack ∈ pool.free) : stack.block ∉ d.granted.map (·.stack.block) := by
  intro used
  have apart := h.nodup
  rw [List.map_append, List.map_map, List.nodup_append] at apart
  have lies : stack ∈ d.free := List.mem_flatMap.mpr ⟨pool, List.mem_of_getElem? found, free⟩
  exact apart.2.2 _ used _ (List.mem_map_of_mem lies) rfl

/-- A block that nobody has had is not in use. -/
theorem not_granted_of_next (h : d.Places first made) :
    d.heap.nextBlock ∉ d.granted.map (·.stack.block) := by
  intro used
  have placed := (h.places.map (·.block)).subset
  rw [List.map_append, List.map_map, h.blocks] at placed
  have bound := (List.mem_range'_1.mp (placed (List.mem_append_left _ used))).2
  rw [h.nextBlock] at bound
  exact Nat.lt_irrefl _ bound

end Places

theorem perform_allocate_of_room {made : List Stack} (never : d.heap.NeverFails)
    (h : d.Places first made) (found : d.pools[i]? = some pool) (room : pool.inUse < pool.limit) :
    ∃ stack fresh, (d.exchange (.allocate i sizeClass)).answer = .granted stack fresh ∧
      stack.sizeClass = sizeClass ∧ stack.block ∉ d.granted.map (·.stack.block) ∧
      if fresh then pool.freeStacks sizeClass = [] ∧ stack.block = d.heap.nextBlock
      else (pool.freeStacks sizeClass).head? = some stack := by
  cases effect_allocate never i sizeClass with
  | refused action _ found' full =>
    cases action
    obtain rfl := Option.some.inj (found.symm.trans found')
    exact absurd room (UInt64.not_lt.mpr full)
  | @reused _ _ _ stack rest action answer found' _ top =>
    cases action
    obtain rfl := Option.some.inj (found.symm.trans found')
    have listed : stack ∈ pool.freeStacks sizeClass := top ▸ List.mem_cons_self
    have free := StackPool.mem_free_iff.mpr ⟨sizeClass, listed⟩
    have sorted := h.sorted pool (List.mem_of_getElem? found)
    exact ⟨stack, false, answer, sorted _ _ listed, h.not_granted_of_free found free,
      congrArg List.head? top⟩
  | created action answer found' _ bare =>
    cases action
    obtain rfl := Option.some.inj (found.symm.trans found')
    exact ⟨_, true, answer, rfl, h.not_granted_of_next, bare, rfl⟩
  | returned action => cases action
  | impossible _ cause =>
    obtain ⟨bound, _⟩ := List.getElem?_eq_some_iff.mp found
    rcases cause with ⟨j, _, action, missing⟩ | ⟨_, _, action, _⟩
    · cases action
      exact absurd bound (Nat.not_lt.mpr missing)
    · cases action

/-! ### Pools through their history -/

theorem pool_of_ofLimits {heap : Heap} {limits : List UInt64}
    (found : (ofLimits heap limits).pools[i]? = some pool) : ∃ limit, pool = { limit } := by
  rw [ofLimits, List.getElem?_map] at found
  obtain ⟨limit, _, rfl⟩ := Option.map_eq_some_iff.mp found
  exact ⟨limit, rfl⟩

theorem freeStacks_new (limit : UInt64) (sizeClass : SizeClass) :
    StackPool.freeStacks { limit } sizeClass = [] := by
  cases sizeClass <;> rfl

section History

variable {heap : Heap} (never : heap.NeverFails) (limits : List UInt64) (actions : List Action)

include never

/-- What holds of new pools, and is kept by whatever can come of an exchange, holds of the pools and
all that was asked of them. -/
theorem effect_induction {P : List Exchange → StackPools → Prop}
    (start : P [] (ofLimits heap limits))
    (keeps : ∀ earlier (d : StackPools) action, (d.exchange action).Effect → P earlier d →
      P (earlier ++ [d.exchange action]) (d.exchange action).after) :
    P ((ofLimits heap limits).exchanges actions) ((ofLimits heap limits).after actions) ∧
      ((ofLimits heap limits).after actions).heap.NeverFails := by
  refine Exchange.record_induction
    (P := fun exchanges (d : StackPools) => P exchanges d ∧ d.heap.NeverFails)
    ⟨start, never⟩ ?_ actions
  rintro earlier d action ⟨holds, granting⟩
  have outcome := effect granting action
  exact ⟨keeps earlier d action outcome holds, outcome.neverFails granting⟩

theorem places_after :
    ((ofLimits heap limits).after actions).Places heap.nextBlock
      (((ofLimits heap limits).exchanges actions).filterMap Exchange.made) := by
  refine (effect_induction never limits actions (P := fun exchanges d =>
    d.Places heap.nextBlock (exchanges.filterMap Exchange.made)) ?_ ?_).1
  · have bare : (ofLimits heap limits).free = [] := by
      simp [free, ofLimits, StackPool.free, freeStacks_new]
    refine ⟨rfl, rfl, by rw [bare]; exact .refl _, fun pool member sizeClass stack free => ?_⟩
    obtain ⟨limit, _, rfl⟩ := List.mem_map.mp member
    rw [freeStacks_new] at free
    cases free
  · intro earlier d action outcome places
    have last : [d.exchange action].filterMap Exchange.made = (d.exchange action).made.toList := by
      cases made : (d.exchange action).made <;> simp [made]
    have later := outcome.places places
    rw [← last, ← List.filterMap_append] at later
    exact later

theorem freeStacks_after (sizeClass : SizeClass)
    (found : ((ofLimits heap limits).after actions).pools[i]? = some pool) :
    pool.freeStacks sizeClass =
      returnedTo i sizeClass ((ofLimits heap limits).exchanges actions) := by
  revert pool
  refine (effect_induction never limits actions (P := fun exchanges d =>
    ∀ {pool}, d.pools[i]? = some pool →
      pool.freeStacks sizeClass = returnedTo i sizeClass exchanges) ?_ ?_).1
  · intro pool found
    obtain ⟨limit, rfl⟩ := pool_of_ofLimits found
    exact freeStacks_new limit sizeClass
  · intro earlier d action outcome follows pool found
    have later := outcome.freeStacks (fun _ => follows) found
    rw [later, returnedTo, returnedTo, List.foldl_append]
    rfl

theorem limits_after : ((ofLimits heap limits).after actions).pools.map (·.limit) = limits := by
  refine (effect_induction never limits actions (P := fun _ d => d.pools.map (·.limit) = limits)
    ?_ ?_).1
  · simp [ofLimits, Function.comp_def]
  · intro _ d action outcome same
    exact outcome.limits.trans same

theorem counts_after (found : ((ofLimits heap limits).after actions).pools[i]? = some pool) :
    Counts pool i ((ofLimits heap limits).exchanges actions) := by
  revert pool
  refine (effect_induction never limits actions (P := fun exchanges d =>
    ∀ {pool}, d.pools[i]? = some pool → Counts pool i exchanges) ?_ ?_).1
  · intro pool found
    obtain ⟨limit, rfl⟩ := pool_of_ofLimits found
    constructor <;> simp
  · intro earlier d action outcome counts pool found
    exact outcome.counts (fun _ => counts) found

theorem tallies_after (home : ∀ x ∈ (ofLimits heap limits).exchanges actions, Exchange.GoesHome x)
    (found : ((ofLimits heap limits).after actions).pools[i]? = some pool) :
    Tallies pool (((ofLimits heap limits).after actions).grantedBy i) := by
  revert home pool
  refine (effect_induction never limits actions (P := fun exchanges d => ∀ {pool},
    (∀ x ∈ exchanges, Exchange.GoesHome x) → d.pools[i]? = some pool →
      Tallies pool (d.grantedBy i)) ?_ ?_).1
  · intro pool _ found
    obtain ⟨limit, rfl⟩ := pool_of_ofLimits found
    exact ⟨rfl, Nat.zero_le _⟩
  · intro earlier d action outcome tallies pool home found
    have home' := List.forall_mem_append.mp home
    exact outcome.tallies (home'.2 _ List.mem_cons_self) (fun _ => tallies home'.1) found

/-- No pool grants a stack twice, whoever gives it back to whom, as long as the host refuses
nothing. -/
theorem grantsOnce :
    ((ofLimits heap limits).after actions).GrantsOnce heap.nextBlock limits
      ((ofLimits heap limits).exchanges actions) where
  blocks := (places_after never limits actions).blocks
  nextBlock := (places_after never limits actions).nextBlock
  places := (places_after never limits actions).places
  sorted := (places_after never limits actions).sorted
  lists _ _ found sizeClass := freeStacks_after never limits actions sizeClass found
  limits := limits_after never limits actions
  counts _ _ := counts_after never limits actions
  grants _ _ _ := perform_allocate_of_room
    (effect_induction never limits actions (P := fun _ _ => True) trivial
      fun _ _ _ _ _ => trivial).2
    (places_after never limits actions)
  refuses _ _ _ := perform_allocate_of_full
  tallies home _ _ := tallies_after never limits actions home

end History

/-- A stack that goes to a pool which never granted it is granted by that pool next, and the counter
of the pool that granted it first still counts it. -/
theorem grantsOnce_of_foreignReturn :
    Heap.NeverFails {} ∧
      ((ofLimits {} [2, 1]).after [.allocate 0 .small, .deallocate ⟨0, 0, .small⟩ 1]).pools.map
        (·.freeStacks .small) = [[], [⟨0, .small⟩]] ∧
      ((ofLimits {} [2, 1]).after
        [.allocate 0 .small, .deallocate ⟨0, 0, .small⟩ 1]).pools.map (·.inUse) =
          [1, 18446744073709551615] ∧
      ((ofLimits {} [2, 1]).after [.allocate 0 .small, .deallocate ⟨0, 0, .small⟩ 1]).GrantsOnce 0
        [2, 1] ((ofLimits {} [2, 1]).exchanges
          [.allocate 0 .small, .deallocate ⟨0, 0, .small⟩ 1]) := by
  have never : Heap.NeverFails {} := by decide
  exact ⟨never, by decide, by decide, grantsOnce never _ _⟩

/-- A pool that gets back a stack which it never granted counts down past zero, and then it has
reached every limit. -/
example :
    let d := (ofLimits {} [1, 1]).after
      [.allocate 0 .small, .deallocate ⟨0, 0, .small⟩ 1, .allocate 1 .small]
    d.pools.map (·.inUse) = [1, 18446744073709551615] ∧ d.granted = [] := by
  decide

end StackPools

end ThreadScheduler
