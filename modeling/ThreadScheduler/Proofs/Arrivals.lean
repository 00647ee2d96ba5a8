/-
Module: ThreadScheduler.Proofs.Arrivals
Purpose: The ready queue does what a list of arrivals does. The list is the plain way to keep those
  who wait: whoever comes goes to its end, and when somebody is to be served it is sorted by
  importance, with ties in the order of arrival. Whatever is done to a new queue, it gives the
  answers of the list, and everything that can be read off it is read off the sorted list.
Main exports: Arrival, Arrivals.line, ReadyQueue.Action, ReadyQueue.perform, Arrivals.perform,
  ReadyQueue.sorted, ReadyQueue.Mirrors, ReadyQueue.servesByRank
-/
import Mathlib.Data.List.Destutter
import Mathlib.Data.List.Sort
import ThreadScheduler.Proofs.Levels

namespace ThreadScheduler

/-- A thread that came to wait for a processor, and the policy it waits with. -/
structure Arrival where
  thread : ThreadId
  policy : Policy
  deriving DecidableEq, Repr

/-- Those who wait, in the order in which they came. -/
abbrev Arrivals := List Arrival

namespace ReadyQueue

/-- What can be done to a ready queue. -/
inductive Action where
  | enqueue (thread : ThreadId) (policy : Policy)
  | dequeue
  | remove (thread : ThreadId)
  deriving DecidableEq, Repr

/-- What is heard back from an action. -/
inductive Answer where
  | queued (accepted : Bool)
  | taken (thread : Option ThreadId)
  deriving DecidableEq, Repr

/-- Performs one action on a ready queue. -/
def perform (q : ReadyQueue) : Action → Answer × ReadyQueue
  | .enqueue thread policy =>
      match q.enqueue thread policy with
      | some longer => (.queued true, longer)
      | none => (.queued false, q)
  | .dequeue =>
      match q.dequeue with
      | some (thread, rest) => (.taken (some thread), rest)
      | none => (.taken none, q)
  | .remove thread =>
      match q.remove thread with
      | some rest => (.taken (some thread), rest)
      | none => (.taken none, q)

/-- Performs actions one after the other and collects the answers. -/
def performAll (q : ReadyQueue) : List Action → List Answer × ReadyQueue
  | [] => ([], q)
  | action :: later =>
      let (answer, next) := q.perform action
      let (answers, final) := next.performAll later
      (answer :: answers, final)

end ReadyQueue

namespace Arrivals

open ReadyQueue (Action Answer)

/-- Whether one arrival may stand ahead of another one: it is no less important. -/
def precedes (one other : Arrival) : Bool := one.policy.rank ≤ other.policy.rank

/-- Those who wait in the order in which they are served: the sort is stable. -/
def line (waiting : Arrivals) : List Arrival := waiting.mergeSort precedes

/-- Performs one action on those who wait, when some policies are served. -/
def perform (served : List Policy) (waiting : Arrivals) : Action → Answer × Arrivals
  | .enqueue thread policy =>
      if policy ∈ served then (.queued true, waiting ++ [⟨thread, policy⟩])
      else (.queued false, waiting)
  | .dequeue =>
      match (line waiting).head? with
      | some first => (.taken (some first.thread), waiting.erase first)
      | none => (.taken none, waiting)
  | .remove thread =>
      match (line waiting).find? (·.thread = thread) with
      | some first => (.taken (some first.thread), waiting.erase first)
      | none => (.taken none, waiting)

/-- Performs actions one after the other and collects the answers. -/
def performAll (served : List Policy) (waiting : Arrivals) : List Action → List Answer × Arrivals
  | [] => ([], waiting)
  | action :: later =>
      let (answer, next) := perform served waiting action
      let (answers, final) := performAll served next later
      (answer :: answers, final)

variable {waiting : Arrivals} {one other third : Arrival}

/-- Those who wait with a policy, in the order in which they came. -/
def withPolicy (waiting : Arrivals) (policy : Policy) : List Arrival :=
  waiting.filter (·.policy = policy)

/-! ### Stable sorting -/

theorem precedes_iff : precedes one other = true ↔ one.policy.rank ≤ other.policy.rank := by
  simp [precedes]

theorem precedes_trans (one other third : Arrival) (first : precedes one other = true)
    (second : precedes other third = true) : precedes one third = true :=
  precedes_iff.mpr (Nat.le_trans (precedes_iff.mp first) (precedes_iff.mp second))

theorem precedes_total (one other : Arrival) :
    (precedes one other || precedes other one) = true := by
  rw [Bool.or_eq_true, precedes_iff, precedes_iff]
  exact Nat.le_total _ _

theorem withPolicy_cons (first : Arrival) (rest : Arrivals) (policy : Policy) :
    withPolicy (first :: rest) policy =
      if first.policy = policy then first :: withPolicy rest policy
      else withPolicy rest policy := by
  by_cases same : first.policy = policy <;> simp [withPolicy, same]

theorem policy_of_mem {policy : Policy} (member : one ∈ withPolicy waiting policy) :
    one.policy = policy :=
  of_decide_eq_true (List.mem_filter.mp member).2

theorem line_perm (waiting : Arrivals) : (line waiting).Perm waiting :=
  List.mergeSort_perm waiting precedes

/-- A sorted list consists of the blocks of its policies. -/
theorem eq_blocks_of_sorted (sorted : waiting.Pairwise fun one other => precedes one other = true) :
    waiting = Policy.all.flatMap (withPolicy waiting) := by
  induction waiting with
  | nil => rfl
  | cons first rest ih =>
    obtain ⟨least, later⟩ := List.pairwise_cons.mp sorted
    have blocks := ih later
    -- Nobody in the rest is more important than the first one, so the blocks above it are empty.
    have none_above (policy : Policy) (above : policy.Outranks first.policy) :
        withPolicy rest policy = [] := by
      apply List.eq_nil_iff_forall_not_mem.mpr
      intro other member
      have noLess := precedes_iff.mp (least other (List.mem_filter.mp member).1)
      rw [policy_of_mem member] at noLess
      exact Nat.not_lt.mpr noLess above
    simp only [Policy.all, List.flatMap_cons, List.flatMap_nil, withPolicy_cons] at blocks ⊢
    cases policy : first.policy with
    | lowLatency => simpa using blocks
    | normal =>
      rw [policy] at none_above
      have high := none_above .lowLatency (by decide)
      simpa [high] using blocks
    | background =>
      rw [policy] at none_above
      have high := none_above .lowLatency (by decide)
      have middle := none_above .normal (by decide)
      simpa [high, middle] using blocks

/-- Sorting keeps the order of those who wait with one policy. -/
theorem withPolicy_line (waiting : Arrivals) (policy : Policy) :
    withPolicy (line waiting) policy = withPolicy waiting policy := by
  have tied : (withPolicy waiting policy).Pairwise fun one other => precedes one other = true := by
    apply List.pairwise_iff_forall_sublist.mpr
    intro one other both
    have sameOne := policy_of_mem (both.subset List.mem_cons_self)
    have sameOther := policy_of_mem (both.subset (List.mem_cons_of_mem one List.mem_cons_self))
    have level : one.policy = other.policy := sameOne.trans sameOther.symm
    exact precedes_iff.mpr (Nat.le_of_eq (congrArg Policy.rank level))
  have kept : (withPolicy waiting policy).Sublist (line waiting) :=
    List.sublist_mergeSort precedes_trans precedes_total tied List.filter_sublist
  have block : (withPolicy waiting policy).Sublist (withPolicy (line waiting) policy) := by
    have again := kept.filter (·.policy = policy)
    simpa [withPolicy] using again
  have count : (withPolicy (line waiting) policy).length = (withPolicy waiting policy).length :=
    ((line_perm waiting).filter _).length_eq
  exact (block.eq_of_length count.symm).symm

/-- The line consists of those who wait with each policy, in the order in which they came. -/
theorem line_eq_blocks (waiting : Arrivals) :
    line waiting = Policy.all.flatMap (withPolicy waiting) := by
  have sorted : (line waiting).Pairwise fun one other => precedes one other = true :=
    List.pairwise_mergeSort precedes_trans precedes_total waiting
  calc line waiting
      = Policy.all.flatMap (withPolicy (line waiting)) := eq_blocks_of_sorted sorted
    _ = Policy.all.flatMap (withPolicy waiting) :=
        List.flatMap_congr fun policy _ => withPolicy_line waiting policy

end Arrivals

namespace ReadyQueue

open Arrivals (line withPolicy)

variable {q rest : ReadyQueue} {served : List Policy} {waiting : Arrivals} {thread : ThreadId}
variable {policy : Policy} {others : List ThreadId}

/-- A queue stands for those who wait: each level holds those who wait with its policy, in the order
in which they came. -/
structure StandsFor (q : ReadyQueue) (served : List Policy) (waiting : Arrivals) : Prop where
  ordered : q.Ordered
  mem_policies : ∀ policy, policy ∈ q.policies ↔ policy ∈ served
  levels : ∀ policy, withPolicy waiting policy = (q.threadsAt policy).map (⟨·, policy⟩)

/-! ### Who is first -/

/-- What is found with a policy is found first if nothing is found with a more important one. -/
theorem findSome?_all {α : Type} {find : Policy → Option α} {found : α} (policy : Policy)
    (here : find policy = some found) (above : ∀ p, p.Outranks policy → find p = none) :
    Policy.all.findSome? find = some found := by
  cases policy with
  | lowLatency => simp [Policy.all, here]
  | normal => simp [Policy.all, here, above .lowLatency (by decide)]
  | background =>
    simp [Policy.all, here, above .lowLatency (by decide), above .normal (by decide)]

private theorem find?_level (threads : List ThreadId) (policy : Policy) (thread : ThreadId) :
    (threads.map fun t => (⟨t, policy⟩ : Arrival)).find? (·.thread = thread) =
      if thread ∈ threads then some ⟨thread, policy⟩ else none := by
  induction threads with
  | nil => rfl
  | cons first others ih =>
    by_cases same : first = thread
    · simp [same]
    · have other : ¬ thread = first := fun eq => same eq.symm
      simp [same, other, ih]

namespace StandsFor

/-- The first in line is the head of the level that is served. -/
theorem head?_line (h : q.StandsFor served waiting) (head : q.threadsAt policy = thread :: others)
    (above : ∀ p, p.Outranks policy → q.threadsAt p = []) :
    (line waiting).head? = some ⟨thread, policy⟩ := by
  rw [Arrivals.line_eq_blocks, List.head?_flatMap]
  apply findSome?_all policy
  · rw [h.levels, head]
    rfl
  · intro p outranks
    rw [h.levels, above p outranks]
    rfl

/-- The first entry of a thread in line is the one of the highest level that it waits in. -/
theorem find?_line (h : q.StandsFor served waiting) (member : thread ∈ q.threadsAt policy)
    (above : ∀ p, p.Outranks policy → thread ∉ q.threadsAt p) :
    (line waiting).find? (·.thread = thread) = some ⟨thread, policy⟩ := by
  rw [Arrivals.line_eq_blocks, List.find?_flatMap]
  apply findSome?_all
  · rw [h.levels, find?_level, if_pos member]
  · intro p outranks
    rw [h.levels, find?_level, if_neg (above p outranks)]

end StandsFor

/-! ### The whole line -/

/-- All waiting threads with the policies of their levels, in the order in which they are served. -/
def entries (q : ReadyQueue) : List Arrival :=
  q.levels.flatMap fun level => level.threads.map (⟨·, level.policy⟩)

theorem toList_eq_entries (q : ReadyQueue) : q.toList = q.entries.map (·.thread) := by
  simp [toList, entries, List.map_flatMap, Function.comp_def]

/-- The policy served next is the one of the first entry. -/
theorem peekPolicy_eq_entries (q : ReadyQueue) : q.peekPolicy = q.entries.head?.map (·.policy) := by
  obtain ⟨levels⟩ := q
  induction levels with
  | nil => rfl
  | cons level lower ih =>
    cases found : level.threads with
    | nil => simpa [peekPolicy, entries, found] using ih
    | cons first others => simp [peekPolicy, entries, found]

private theorem withPolicy_entries_of_levels {levels : List Level}
    (distinct : (levels.map (·.policy)).Nodup) (policy : Policy) :
    withPolicy (entries ⟨levels⟩) policy = (threadsIn levels policy).map (⟨·, policy⟩) := by
  induction levels with
  | nil => rfl
  | cons level lower ih =>
    obtain ⟨fresh, lowerDistinct⟩ := List.nodup_cons.mp distinct
    have split : withPolicy (entries ⟨level :: lower⟩) policy =
        withPolicy (level.threads.map (⟨·, level.policy⟩)) policy ++
          (threadsIn lower policy).map (⟨·, policy⟩) := by
      rw [← ih lowerDistinct]
      exact List.filter_append _ _
    rw [split, threadsIn_cons]
    by_cases here : level.policy = policy
    · have below : threadsIn lower policy = [] := threadsIn_eq_nil (here ▸ fresh)
      simp [withPolicy, here, below]
    · simp [withPolicy, here]

/-- The entries stand in the order of importance. -/
theorem sorted_entries (ordered : q.Ordered) :
    q.entries.Pairwise fun one other => Arrivals.precedes one other = true := by
  apply List.pairwise_flatMap.mpr
  constructor
  · intro level _
    rw [List.pairwise_map]
    exact List.pairwise_of_forall fun _ _ => Arrivals.precedes_iff.mpr (Nat.le_refl _)
  · refine (List.pairwise_map.mp ordered).imp fun outranks one inOne other inOther => ?_
    obtain ⟨_, _, rfl⟩ := List.mem_map.mp inOne
    obtain ⟨_, _, rfl⟩ := List.mem_map.mp inOther
    exact Arrivals.precedes_iff.mpr (Nat.le_of_lt outranks)

/-- The entries of a queue that stands for those who wait are their line. -/
theorem StandsFor.entries_eq (h : q.StandsFor served waiting) : q.entries = line waiting := by
  have same (policy : Policy) : withPolicy q.entries policy = withPolicy waiting policy :=
    (withPolicy_entries_of_levels h.ordered.nodup policy).trans (h.levels policy).symm
  calc q.entries
      = Policy.all.flatMap (withPolicy q.entries) :=
        Arrivals.eq_blocks_of_sorted (sorted_entries h.ordered)
    _ = Policy.all.flatMap (withPolicy waiting) := List.flatMap_congr fun policy _ => same policy
    _ = line waiting := (Arrivals.line_eq_blocks waiting).symm

/-! ### The actions -/

namespace StandsFor

/-- Whoever comes goes to the end of the level of its policy. -/
theorem queued {longer : ReadyQueue} (h : q.StandsFor served waiting)
    (added : q.enqueue thread policy = some longer) :
    longer.StandsFor served (waiting ++ [⟨thread, policy⟩]) where
  ordered := by
    rw [Ordered, policies_of_enqueue added]
    exact h.ordered
  mem_policies := by
    rw [policies_of_enqueue added]
    exact h.mem_policies
  levels p := by
    have old := h.levels p
    rw [threadsAt_of_enqueue added]
    unfold withPolicy at old ⊢
    rw [List.filter_append, old]
    by_cases same : policy = p
    · simp [same]
    · have other : ¬ p = policy := fun eq => same eq.symm
      simp [same, other]

/-- Whoever leaves the level of its policy is no longer among those who wait. -/
theorem left (h : q.StandsFor served waiting) (policies : rest.policies = q.policies)
    (erased : rest.threadsAt policy = (q.threadsAt policy).erase thread)
    (others : ∀ p, p ≠ policy → rest.threadsAt p = q.threadsAt p) :
    rest.StandsFor served (waiting.erase ⟨thread, policy⟩) where
  ordered := by
    rw [Ordered, policies]
    exact h.ordered
  mem_policies := by
    rw [policies]
    exact h.mem_policies
  levels p := by
    have blocks : withPolicy (waiting.erase ⟨thread, policy⟩) p =
        (withPolicy waiting p).erase ⟨thread, policy⟩ := List.erase_filter.symm
    rw [blocks]
    by_cases same : p = policy
    · subst same
      have named : Function.Injective fun t => (⟨t, p⟩ : Arrival) :=
        fun _ _ eq => congrArg Arrival.thread eq
      rw [h.levels, erased, List.map_erase named]
    · rw [others p same, ← h.levels]
      apply List.erase_of_not_mem
      intro member
      exact same (Arrivals.policy_of_mem member).symm

/-- One action is answered alike, and leaves the queue standing for those who wait then. -/
theorem perform (h : q.StandsFor served waiting) (action : Action) :
    (q.perform action).1 = (Arrivals.perform served waiting action).1 ∧
      (q.perform action).2.StandsFor served (Arrivals.perform served waiting action).2 := by
  have nobody (empty : q.toList = []) : line waiting = [] := by
    rw [toList_eq_entries, h.entries_eq] at empty
    exact List.map_eq_nil_iff.mp empty
  cases action with
  | enqueue thread policy =>
    cases added : q.enqueue thread policy with
    | some longer =>
      have accepted : policy ∈ served :=
        (h.mem_policies policy).mp (enqueue_isSome_iff.mp (Option.isSome_of_eq_some added))
      simp only [ReadyQueue.perform, Arrivals.perform, added, accepted, if_true]
      exact ⟨trivial, h.queued added⟩
    | none =>
      have refused : policy ∉ served := by
        intro accepted
        have room : (q.enqueue thread policy).isSome :=
          enqueue_isSome_iff.mpr ((h.mem_policies policy).mpr accepted)
        simp [added] at room
      simp only [ReadyQueue.perform, Arrivals.perform, added, refused, if_false]
      exact ⟨trivial, h⟩
  | dequeue =>
    cases taken : q.dequeue with
    | some first =>
      obtain ⟨thread, rest⟩ := first
      obtain ⟨policy, head, others, above⟩ := exists_level_of_dequeue h.ordered taken
      have erased : rest.threadsAt policy = (q.threadsAt policy).erase thread := by
        rw [head, List.erase_cons_head]
      simp only [ReadyQueue.perform, Arrivals.perform, taken, h.head?_line head above]
      exact ⟨trivial, h.left (policies_of_dequeue h.ordered taken) erased others⟩
    | none =>
      have empty := nobody (dequeue_eq_none_iff.mp taken)
      simp only [ReadyQueue.perform, Arrivals.perform, taken, empty, List.head?_nil]
      exact ⟨trivial, h⟩
  | remove thread =>
    cases taken : q.remove thread with
    | some rest =>
      obtain ⟨policy, member, erased, others, above⟩ := exists_level_of_remove h.ordered taken
      simp only [ReadyQueue.perform, Arrivals.perform, taken, h.find?_line member above]
      exact ⟨trivial, h.left (policies_of_remove h.ordered taken) erased others⟩
    | none =>
      -- A thread that stands in line could have been removed.
      have absent : (line waiting).find? (·.thread = thread) = none := by
        rw [List.find?_eq_none, ← h.entries_eq]
        intro arrival listed same
        have waits : thread ∈ q.toList := by
          rw [toList_eq_entries]
          exact List.mem_map.mpr ⟨arrival, listed, of_decide_eq_true same⟩
        have found := remove_isSome_iff.mpr waits
        simp [taken] at found
      simp only [ReadyQueue.perform, Arrivals.perform, taken, absent]
      exact ⟨trivial, h⟩

/-- Whatever is done, the answers are alike and the queue goes on standing for those who wait. -/
theorem performAll (h : q.StandsFor served waiting) (actions : List Action) :
    (q.performAll actions).1 = (Arrivals.performAll served waiting actions).1 ∧
      (q.performAll actions).2.StandsFor served
        (Arrivals.performAll served waiting actions).2 := by
  induction actions generalizing q waiting with
  | nil => exact ⟨rfl, h⟩
  | cons action later ih =>
    obtain ⟨answer, next⟩ := h.perform action
    obtain ⟨answers, final⟩ := ih next
    exact ⟨congr (congrArg List.cons answer) answers, final⟩

end StandsFor

/-! ### The policies served -/

/-- The policies, the most important first. -/
def sorted (policies : List Policy) : List Policy := policies.mergeSort fun a b => a.rank ≤ b.rank

private theorem mem_destutter'_iff {policy first : Policy} {later : List Policy} :
    policy ∈ later.destutter' (· ≠ ·) first ↔ policy ∈ first :: later := by
  induction later generalizing first with
  | nil => rw [List.destutter'_nil]
  | cons next later ih =>
    rw [List.destutter'_cons]
    split
    · rw [List.mem_cons, ih, List.mem_cons (l := next :: later)]
    · rename_i same
      rw [ih, not_not.mp same]
      simp

private theorem pairwise_destutter' {first : Policy} {later : List Policy}
    (ascends : (first :: later).Pairwise fun a b => a.rank ≤ b.rank) :
    (later.destutter' (· ≠ ·) first).Pairwise Policy.Outranks := by
  induction later generalizing first with
  | nil => exact List.pairwise_singleton _ _
  | cons next later ih =>
    obtain ⟨below, rest⟩ := List.pairwise_cons.mp ascends
    rw [List.destutter'_cons]
    split
    · rename_i other
      refine List.pairwise_cons.mpr ⟨fun policy member => ?_, ih rest⟩
      have first_le := below next List.mem_cons_self
      have next_le : next.rank ≤ policy.rank := by
        rcases List.mem_cons.mp (mem_destutter'_iff.mp member) with rfl | behind
        · exact Nat.le_refl _
        · exact (List.pairwise_cons.mp rest).1 policy behind
      -- The first policy of a row is another one than the next, so it is strictly above it.
      have strict : first.rank < next.rank :=
        Nat.lt_of_le_of_ne first_le fun same => other (Policy.rank_inj same)
      exact Nat.lt_of_lt_of_le strict next_le
    · rename_i same
      exact ih (not_not.mp same ▸ rest)

/-- No policy is lost when the repetitions are left out. -/
theorem mem_destutter_iff {policies : List Policy} {policy : Policy} :
    policy ∈ (sorted policies).destutter (· ≠ ·) ↔ policy ∈ policies := by
  have same : policy ∈ sorted policies ↔ policy ∈ policies := List.mem_mergeSort
  rw [← same]
  cases sorted policies with
  | nil => rw [List.destutter_nil]
  | cons first later => exact mem_destutter'_iff

/-- Sorted policies without repetitions stand in the strict order of importance. -/
theorem pairwise_destutter (policies : List Policy) :
    ((sorted policies).destutter (· ≠ ·)).Pairwise Policy.Outranks := by
  have ascends : (sorted policies).Pairwise fun a b => a.rank ≤ b.rank := by
    unfold sorted
    have trans (a b c : Policy) (first : decide (a.rank ≤ b.rank) = true)
        (second : decide (b.rank ≤ c.rank) = true) : decide (a.rank ≤ c.rank) = true :=
      decide_eq_true (Nat.le_trans (of_decide_eq_true first) (of_decide_eq_true second))
    have total (a b : Policy) : (decide (a.rank ≤ b.rank) || decide (b.rank ≤ a.rank)) = true := by
      simpa using Nat.le_total a.rank b.rank
    exact (List.pairwise_mergeSort trans total policies).imp of_decide_eq_true
  cases line : sorted policies with
  | nil => exact .nil
  | cons first later => exact pairwise_destutter' (line ▸ ascends)

/-- All that can be read off a queue is read off the line of those who wait. -/
structure Mirrors (q : ReadyQueue) (served : List Policy) (waiting : Arrivals) : Prop where
  toList : q.toList = (line waiting).map (·.thread)
  peek : q.peek = (line waiting).head?.map (·.thread)
  peekPolicy : q.peekPolicy = (line waiting).head?.map (·.policy)
  length : q.length = waiting.length
  isEmpty : q.isEmpty = waiting.isEmpty
  contains : ∀ thread, q.contains thread = waiting.any (·.thread = thread)
  /-- A policy that is served has a level, with those who wait with it in the order in which they
  came. -/
  level : ∀ policy, (q.level? policy).map (·.threads) =
    if policy ∈ served then some ((withPolicy waiting policy).map (·.thread)) else none
  levelLength : ∀ policy, q.levelLength policy = waiting.countP (·.policy = policy)
  /-- The policies are listed in the order of importance, each once. -/
  policies : q.policies.Pairwise Policy.Outranks
  mem_policies : ∀ policy, policy ∈ q.policies ↔ policy ∈ served
  /-- They are the given ones, sorted and then each kept only where it does not follow itself. -/
  policies_eq : q.policies = (sorted served).destutter (· ≠ ·)

/-- The threads of a level are those who wait with its policy. -/
theorem StandsFor.threads_eq (h : q.StandsFor served waiting) (policy : Policy) :
    q.threadsAt policy = (withPolicy waiting policy).map (·.thread) := by
  rw [h.levels, List.map_map]
  exact (List.map_id _).symm

theorem StandsFor.mirrors (h : q.StandsFor served waiting) : q.Mirrors served waiting where
  toList := by rw [toList_eq_entries, h.entries_eq]
  peek := by rw [peek_eq_head?, toList_eq_entries, h.entries_eq, List.head?_map]
  peekPolicy := by rw [peekPolicy_eq_entries, h.entries_eq]
  length := by
    rw [length_eq, toList_eq_entries, h.entries_eq, List.length_map]
    exact (Arrivals.line_perm waiting).length_eq
  isEmpty := by
    rw [← (Arrivals.line_perm waiting).isEmpty_eq, Bool.eq_iff_iff, isEmpty_iff, toList_eq_entries,
      h.entries_eq, List.map_eq_nil_iff, List.isEmpty_iff]
  contains thread := by
    rw [Bool.eq_iff_iff, contains_iff, toList_eq_entries, h.entries_eq]
    simp [(Arrivals.line_perm waiting).mem_iff]
  level policy := by
    rw [← h.threads_eq]
    cases found : q.level? policy with
    | none =>
      have unserved : policy ∉ served := by
        rw [← h.mem_policies, ← hasLevel_iff]
        simp [hasLevel, found]
      rw [if_neg unserved]
      rfl
    | some level =>
      have known : policy ∈ served := by
        rw [← h.mem_policies, ← hasLevel_iff]
        simp [hasLevel, found]
      have threads : q.threadsAt policy = level.threads := by
        change (q.level? policy).elim [] (·.threads) = level.threads
        rw [found]
        rfl
      rw [if_pos known, threads]
      rfl
  levelLength policy := by
    have count : q.levelLength policy = (q.threadsAt policy).length := by
      change _ = ((q.level? policy).elim [] (·.threads)).length
      unfold levelLength
      cases q.level? policy <;> rfl
    rw [count, h.threads_eq, List.length_map, List.countP_eq_length_filter]
    rfl
  policies := h.ordered
  mem_policies := h.mem_policies
  policies_eq := by
    have same (policy : Policy) :
        policy ∈ q.policies ↔ policy ∈ (sorted served).destutter (· ≠ ·) := by
      rw [h.mem_policies, mem_destutter_iff]
    exact List.Pairwise.eq_of_mem_iff h.ordered (pairwise_destutter served) same

/-- The ready queue is a stable priority queue. The policies served may be given in any order and
repeatedly, and a thread may come any number of times and with any policies, also with one that is
not served: a new queue answers as the list of arrivals does, and afterwards everything read off it
is read off this list, sorted by importance with ties in the order of arrival. -/
theorem servesByRank (served : List Policy) (actions : List Action) :
    ((ofPolicies served).performAll actions).1 = (Arrivals.performAll served [] actions).1 ∧
      ((ofPolicies served).performAll actions).2.Mirrors served
        (Arrivals.performAll served [] actions).2 := by
  have fresh : (ofPolicies served).StandsFor served [] := by
    refine ⟨ordered_ofPolicies served, fun policy => ?_, fun policy => ?_⟩
    · simp [ofPolicies, ReadyQueue.policies, policy.mem_all]
    · rw [threadsAt_ofPolicies]
      rfl
  obtain ⟨answers, final⟩ := fresh.performAll actions
  exact ⟨answers, final.mirrors⟩

/-- A thread that waits with two policies is removed where it is served first, although it came
there last, and then where it came first. -/
example :
    let first : ThreadId := .ofIndex 0
    let second : ThreadId := .ofIndex 1
    ((ofPolicies [.background, .lowLatency, .background]).performAll
      [.enqueue first .background, .enqueue second .lowLatency, .enqueue first .normal,
        .enqueue first .lowLatency, .remove first, .dequeue, .dequeue, .remove first]).1 =
      [.queued true, .queued true, .queued false, .queued true, .taken (some first),
        .taken (some second), .taken (some first), .taken none] := by
  decide

end ReadyQueue

end ThreadScheduler
