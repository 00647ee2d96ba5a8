/-
Module: ThreadScheduler.ReadyQueue
Purpose: The threads that wait for a processor: one first-in first-out level for each policy served,
  the most important level first. A thread of a lower level is found only when all higher levels are
  empty; there is no aging, so steady work at a high level starves the levels below.
Main exports: Level, ReadyQueue, ReadyQueue.enqueue, ReadyQueue.dequeue, ReadyQueue.remove
-/
import ThreadScheduler.Handle
import ThreadScheduler.Policy

namespace ThreadScheduler

/-- The ready threads of one policy, the longest waiting first. -/
structure Level where
  policy : Policy
  threads : List ThreadId := []
  deriving DecidableEq, Repr, Inhabited

/-- The levels of the ready queue, the most important first. -/
structure ReadyQueue where
  levels : List Level
  deriving DecidableEq, Repr, Inhabited

namespace ReadyQueue

/-- Appends a thread to the first level of a policy; none if no level has the policy. -/
def appendTo (thread : ThreadId) (policy : Policy) : List Level → Option (List Level)
  | [] => none
  | level :: lower =>
      if level.policy = policy then
        some ({ level with threads := level.threads ++ [thread] } :: lower)
      else (appendTo thread policy lower).map (level :: ·)

/-- Takes the head off the first level that is not empty. -/
def takeHead : List Level → Option (ThreadId × List Level)
  | [] => none
  | level :: lower =>
      match level.threads with
      | thread :: rest => some (thread, { level with threads := rest } :: lower)
      | [] => (takeHead lower).map fun (thread, lower) => (thread, level :: lower)

/-- Takes the first occurrence of a thread out of the first level that holds it. -/
def takeOut (thread : ThreadId) : List Level → Option (List Level)
  | [] => none
  | level :: lower =>
      if level.threads.contains thread then
        some ({ level with threads := level.threads.erase thread } :: lower)
      else (takeOut thread lower).map (level :: ·)

/-- An empty queue that serves the given policies; order and repetition do not matter. -/
def ofPolicies (policies : List Policy) : ReadyQueue :=
  ⟨(Policy.all.filter (· ∈ policies)).map fun policy => { policy }⟩

/-- The policies served, the most important first. -/
def policies (q : ReadyQueue) : List Policy := q.levels.map (·.policy)

/-- The level of a policy. -/
def level? (q : ReadyQueue) (policy : Policy) : Option Level :=
  q.levels.find? (·.policy = policy)

/-- Whether the queue serves a policy. -/
def hasLevel (q : ReadyQueue) (policy : Policy) : Bool := (q.level? policy).isSome

/-- The number of threads that wait at a policy; none for a policy not served. -/
def levelLength (q : ReadyQueue) (policy : Policy) : Nat :=
  (q.level? policy).elim 0 (·.threads.length)

/-- Lets a thread wait at the end of the level of its policy; none if the policy is not served. -/
def enqueue (q : ReadyQueue) (thread : ThreadId) (policy : Policy) : Option ReadyQueue :=
  (appendTo thread policy q.levels).map ReadyQueue.mk

/-- Takes the longest waiting thread of the highest level that is not empty. -/
def dequeue (q : ReadyQueue) : Option (ThreadId × ReadyQueue) :=
  (takeHead q.levels).map fun (thread, levels) => (thread, ⟨levels⟩)

/-- Takes a thread out of the level it waits in; none if it does not wait. -/
def remove (q : ReadyQueue) (thread : ThreadId) : Option ReadyQueue :=
  (takeOut thread q.levels).map ReadyQueue.mk

/-- The thread that is served next. -/
def peek (q : ReadyQueue) : Option ThreadId := q.levels.findSome? (·.threads.head?)

/-- The policy of the level that is served next. -/
def peekPolicy (q : ReadyQueue) : Option Policy :=
  (q.levels.find? fun level => !level.threads.isEmpty).map (·.policy)

/-- All waiting threads in the order in which they would be served. -/
def toList (q : ReadyQueue) : List ThreadId := q.levels.flatMap (·.threads)

/-- Whether a thread waits at some level. -/
def contains (q : ReadyQueue) (thread : ThreadId) : Bool :=
  q.levels.any fun level => level.threads.contains thread

/-- The number of waiting threads, over all levels. -/
def length (q : ReadyQueue) : Nat :=
  q.levels.foldl (fun total level => total + level.threads.length) 0

/-- Whether no thread waits. -/
def isEmpty (q : ReadyQueue) : Bool := q.levels.all fun level => level.threads.isEmpty

private theorem takeHead_flatMap {levels rest : List Level} {thread : ThreadId}
    (h : takeHead levels = some (thread, rest)) :
    levels.flatMap (·.threads) = thread :: rest.flatMap (·.threads) := by
  induction levels generalizing rest with
  | nil => cases h
  | cons level lower ih =>
    unfold takeHead at h
    split at h
    · rename_i first others found
      obtain ⟨rfl, rfl⟩ := Prod.mk.injEq .. ▸ Option.some.inj h
      simp [found]
    · rename_i found
      obtain ⟨⟨head, lowerRest⟩, taken, same⟩ := Option.map_eq_some_iff.mp h
      obtain ⟨rfl, rfl⟩ := Prod.mk.injEq .. ▸ same
      simp [found, ih taken]

/-- The thread served is the first of those that wait, and the others keep their order. -/
theorem toList_of_dequeue {q rest : ReadyQueue} {thread : ThreadId}
    (h : q.dequeue = some (thread, rest)) : q.toList = thread :: rest.toList := by
  obtain ⟨⟨head, levels⟩, taken, same⟩ := Option.map_eq_some_iff.mp h
  obtain ⟨rfl, rfl⟩ := Prod.mk.injEq .. ▸ same
  exact takeHead_flatMap taken

private theorem takeHead_eq_none_iff {levels : List Level} :
    takeHead levels = none ↔ levels.flatMap (·.threads) = [] := by
  induction levels with
  | nil => simp [takeHead]
  | cons level lower ih =>
    unfold takeHead
    split <;> rename_i found <;> simp [found, ih]

/-- Nothing is served exactly if nothing waits. -/
theorem dequeue_eq_none_iff {q : ReadyQueue} : q.dequeue = none ↔ q.toList = [] := by
  simp [dequeue, toList, takeHead_eq_none_iff]

/-- The thread shown as next is the first of those that wait. -/
theorem peek_eq_head? (q : ReadyQueue) : q.peek = q.toList.head? := by
  obtain ⟨levels⟩ := q
  induction levels with
  | nil => rfl
  | cons level lower ih =>
    cases found : level.threads <;> simp_all [peek, toList]

theorem contains_iff {q : ReadyQueue} {thread : ThreadId} :
    q.contains thread = true ↔ thread ∈ q.toList := by
  simp [contains, toList]

private theorem foldl_add_length (total : Nat) (levels : List Level) :
    levels.foldl (fun total level => total + level.threads.length) total =
      total + (levels.flatMap (·.threads)).length := by
  induction levels generalizing total with
  | nil => rfl
  | cons level lower ih => simp [ih, Nat.add_assoc]

/-- The sum over the levels is the number of all that wait. -/
theorem length_eq (q : ReadyQueue) : q.length = q.toList.length :=
  (foldl_add_length 0 q.levels).trans (Nat.zero_add _)

theorem isEmpty_iff {q : ReadyQueue} : q.isEmpty = true ↔ q.toList = [] := by
  simp [isEmpty, toList]

end ReadyQueue

end ThreadScheduler
