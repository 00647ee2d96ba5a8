/-
Module: ThreadScheduler.Proofs.Levels
Purpose: The ready queue as one list of threads for each policy: what queueing, serving and removing
  a thread do to the list of each policy.
Main exports: ReadyQueue.threadsAt, ReadyQueue.Ordered, ReadyQueue.threadsAt_of_enqueue,
  ReadyQueue.exists_level_of_dequeue, ReadyQueue.exists_level_of_remove
-/
import ThreadScheduler.ReadyQueue

namespace ThreadScheduler

namespace Policy

theorem Outranks.irrefl (p : Policy) : ¬ p.Outranks p := Nat.lt_irrefl p.rank

theorem Outranks.asymm {p q : Policy} (h : p.Outranks q) : ¬ q.Outranks p := Nat.lt_asymm h

instance : Std.Irrefl Outranks := ⟨Outranks.irrefl⟩

instance : Std.Antisymm Outranks := ⟨fun _ _ above below => absurd below above.asymm⟩

end Policy

namespace ReadyQueue

/-- The threads that wait in the first level of a policy, the longest waiting first. -/
def threadsIn (levels : List Level) (policy : Policy) : List ThreadId :=
  (levels.find? (·.policy = policy)).elim [] (·.threads)

/-- The threads that wait for a processor with a policy, the longest waiting first. -/
def threadsAt (q : ReadyQueue) (policy : Policy) : List ThreadId := threadsIn q.levels policy

/-- The levels stand in the order of importance, each policy at most once. -/
def Ordered (q : ReadyQueue) : Prop := q.policies.Pairwise Policy.Outranks

theorem threadsIn_cons (level : Level) (lower : List Level) (policy : Policy) :
    threadsIn (level :: lower) policy =
      if level.policy = policy then level.threads else threadsIn lower policy := by
  by_cases h : level.policy = policy <;> simp [threadsIn, h]

theorem threadsIn_eq_nil {levels : List Level} {policy : Policy}
    (h : policy ∉ levels.map (·.policy)) : threadsIn levels policy = [] := by
  have missing : levels.find? (·.policy = policy) = none := by
    simp only [List.find?_eq_none, decide_eq_true_eq]
    exact fun level member same => h (List.mem_map.mpr ⟨level, member, same⟩)
  simp [threadsIn, missing]

private theorem served_of_mem {levels : List Level} {policy : Policy} {thread : ThreadId}
    (member : thread ∈ threadsIn levels policy) : policy ∈ levels.map (·.policy) := by
  apply Decidable.byContradiction
  intro missing
  rw [threadsIn_eq_nil missing] at member
  cases member

/-! ### Queueing -/

private theorem appendTo_isSome_iff {levels : List Level} {thread : ThreadId} {policy : Policy} :
    (appendTo thread policy levels).isSome ↔ policy ∈ levels.map (·.policy) := by
  induction levels with
  | nil => simp [appendTo]
  | cons level lower ih =>
    unfold appendTo
    split
    · rename_i same
      simp [same]
    · rename_i other
      simp only [Option.isSome_map, ih, List.map_cons, List.mem_cons]
      exact ⟨.inr, fun h => h.resolve_left fun same => other same.symm⟩

private theorem appendTo_levels {levels rest : List Level} {thread : ThreadId} {policy : Policy}
    (h : appendTo thread policy levels = some rest) :
    rest.map (·.policy) = levels.map (·.policy) ∧
      ∀ p, threadsIn rest p =
        if p = policy then threadsIn levels p ++ [thread] else threadsIn levels p := by
  induction levels generalizing rest with
  | nil => cases h
  | cons level lower ih =>
    unfold appendTo at h
    split at h
    · rename_i same
      obtain rfl := Option.some.inj h
      refine ⟨rfl, fun p => ?_⟩
      simp only [threadsIn_cons, same, eq_comm (a := p)]
      split <;> simp
    · rename_i other
      obtain ⟨lowerRest, added, rfl⟩ := Option.map_eq_some_iff.mp h
      obtain ⟨policies, threads⟩ := ih added
      refine ⟨by simp [policies], fun p => ?_⟩
      simp only [threadsIn_cons, threads]
      by_cases here : level.policy = p
      · have distinct : p ≠ policy := fun same => other (here.trans same)
        simp [here, distinct]
      · simp [here]

/-- A thread can wait exactly if its policy is served. -/
theorem enqueue_isSome_iff {q : ReadyQueue} {thread : ThreadId} {policy : Policy} :
    (q.enqueue thread policy).isSome ↔ policy ∈ q.policies := by
  simp [enqueue, policies, appendTo_isSome_iff]

/-- The policies that have a level are those served. -/
theorem hasLevel_iff {q : ReadyQueue} {policy : Policy} :
    q.hasLevel policy = true ↔ policy ∈ q.policies := by
  simp [hasLevel, level?, policies]

theorem policies_of_enqueue {q rest : ReadyQueue} {thread : ThreadId} {policy : Policy}
    (h : q.enqueue thread policy = some rest) : rest.policies = q.policies := by
  obtain ⟨levels, added, rfl⟩ := Option.map_eq_some_iff.mp h
  exact (appendTo_levels added).1

/-- A queued thread goes to the end of the level of its policy. -/
theorem threadsAt_of_enqueue {q rest : ReadyQueue} {thread : ThreadId} {policy : Policy}
    (h : q.enqueue thread policy = some rest) (p : Policy) :
    rest.threadsAt p = if p = policy then q.threadsAt p ++ [thread] else q.threadsAt p := by
  obtain ⟨levels, added, rfl⟩ := Option.map_eq_some_iff.mp h
  exact (appendTo_levels added).2 p

/-! ### Serving -/

private theorem takeHead_levels {levels rest : List Level} {thread : ThreadId}
    (ordered : (levels.map (·.policy)).Pairwise Policy.Outranks)
    (h : takeHead levels = some (thread, rest)) :
    rest.map (·.policy) = levels.map (·.policy) ∧
      ∃ policy ∈ levels.map (·.policy),
        threadsIn levels policy = thread :: threadsIn rest policy ∧
        (∀ p, p ≠ policy → threadsIn rest p = threadsIn levels p) ∧
        ∀ p, p.Outranks policy → threadsIn levels p = [] := by
  induction levels generalizing rest with
  | nil => cases h
  | cons level lower ih =>
    rw [List.map_cons, List.pairwise_cons] at ordered
    obtain ⟨above, lowerOrdered⟩ := ordered
    unfold takeHead at h
    split at h
    · rename_i first others found
      obtain ⟨rfl, rfl⟩ := Prod.mk.injEq .. ▸ Option.some.inj h
      refine ⟨rfl, level.policy, by simp, by simp [threadsIn_cons, found], ?_, ?_⟩
      · intro p distinct
        simp [threadsIn_cons, distinct.symm]
      · intro p outranks
        apply threadsIn_eq_nil
        intro member
        rw [List.map_cons] at member
        rcases List.mem_cons.mp member with rfl | below
        · exact Policy.Outranks.irrefl _ outranks
        · exact (above p below).asymm outranks
    · rename_i found
      obtain ⟨⟨head, lowerRest⟩, taken, same⟩ := Option.map_eq_some_iff.mp h
      obtain ⟨rfl, rfl⟩ := Prod.mk.injEq .. ▸ same
      obtain ⟨policies, policy, member, served, others, higher⟩ := ih lowerOrdered taken
      -- The level that serves is below this one.
      have distinct : level.policy ≠ policy := by
        rintro rfl
        exact Policy.Outranks.irrefl _ (above _ member)
      refine ⟨by simp [policies], policy, List.mem_cons_of_mem _ member, ?_, ?_, ?_⟩
      · simpa [threadsIn_cons, distinct] using served
      · intro p other
        simp only [threadsIn_cons, others p other]
      · intro p outranks
        rw [threadsIn_cons]
        split
        · exact found
        · exact higher p outranks

theorem policies_of_dequeue {q rest : ReadyQueue} {thread : ThreadId} (ordered : q.Ordered)
    (h : q.dequeue = some (thread, rest)) : rest.policies = q.policies := by
  obtain ⟨⟨head, levels⟩, taken, same⟩ := Option.map_eq_some_iff.mp h
  obtain ⟨rfl, rfl⟩ := Prod.mk.injEq .. ▸ same
  exact (takeHead_levels ordered taken).1

/-- The thread served is the longest waiting one of the highest level that is not empty, and leaves
every other thread where it was. -/
theorem exists_level_of_dequeue {q rest : ReadyQueue} {thread : ThreadId} (ordered : q.Ordered)
    (h : q.dequeue = some (thread, rest)) :
    ∃ policy, q.threadsAt policy = thread :: rest.threadsAt policy ∧
      (∀ p, p ≠ policy → rest.threadsAt p = q.threadsAt p) ∧
      ∀ p, p.Outranks policy → q.threadsAt p = [] := by
  obtain ⟨⟨head, levels⟩, taken, same⟩ := Option.map_eq_some_iff.mp h
  obtain ⟨rfl, rfl⟩ := Prod.mk.injEq .. ▸ same
  obtain ⟨_, policy, _, served⟩ := takeHead_levels ordered taken
  exact ⟨policy, served⟩

/-! ### Removing -/

private theorem takeOut_levels {levels rest : List Level} {thread : ThreadId}
    (ordered : (levels.map (·.policy)).Pairwise Policy.Outranks)
    (h : takeOut thread levels = some rest) :
    rest.map (·.policy) = levels.map (·.policy) ∧
      ∃ policy, thread ∈ threadsIn levels policy ∧
        threadsIn rest policy = (threadsIn levels policy).erase thread ∧
        (∀ p, p ≠ policy → threadsIn rest p = threadsIn levels p) ∧
        ∀ p, p.Outranks policy → thread ∉ threadsIn levels p := by
  induction levels generalizing rest with
  | nil => cases h
  | cons level lower ih =>
    rw [List.map_cons, List.pairwise_cons] at ordered
    obtain ⟨above, lowerOrdered⟩ := ordered
    unfold takeOut at h
    split at h
    · rename_i member
      obtain rfl := Option.some.inj h
      refine ⟨rfl, level.policy, ?_, ?_, ?_, ?_⟩
      · simpa [threadsIn_cons] using member
      · simp [threadsIn_cons]
      · intro p other
        simp [threadsIn_cons, other.symm]
      · intro p outranks waits
        rcases List.mem_cons.mp (served_of_mem waits) with rfl | below
        · exact Policy.Outranks.irrefl _ outranks
        · exact (above p below).asymm outranks
    · rename_i missing
      obtain ⟨lowerRest, taken, rfl⟩ := Option.map_eq_some_iff.mp h
      obtain ⟨policies, policy, member, erased, others, higher⟩ := ih lowerOrdered taken
      have other : level.policy ≠ policy := by
        intro same
        exact Policy.Outranks.irrefl _ (same ▸ above _ (served_of_mem member))
      refine ⟨by simp [policies], policy, ?_, ?_, ?_, ?_⟩
      · simpa [threadsIn_cons, other] using member
      · simpa [threadsIn_cons, other] using erased
      · intro p distinct
        simp only [threadsIn_cons, others p distinct]
      · intro p outranks
        rw [threadsIn_cons]
        split
        · simpa using missing
        · exact higher p outranks

private theorem takeOut_isSome_iff {levels : List Level} {thread : ThreadId} :
    (takeOut thread levels).isSome ↔ thread ∈ levels.flatMap (·.threads) := by
  induction levels with
  | nil => simp [takeOut]
  | cons level lower ih =>
    unfold takeOut
    split
    · rename_i member
      simp [List.contains_iff_mem.mp member]
    · rename_i missing
      have absent : thread ∉ level.threads := fun member => missing (by simpa using member)
      simp [ih, absent]

theorem Ordered.nodup {q : ReadyQueue} (h : q.Ordered) : q.policies.Nodup := by
  refine List.Pairwise.imp ?_ h
  rintro p q outranks rfl
  exact Policy.Outranks.irrefl p outranks

theorem policies_of_remove {q rest : ReadyQueue} {thread : ThreadId} (ordered : q.Ordered)
    (h : q.remove thread = some rest) : rest.policies = q.policies := by
  obtain ⟨levels, taken, rfl⟩ := Option.map_eq_some_iff.mp h
  exact (takeOut_levels ordered taken).1

/-- A thread that is removed leaves the highest level it waits in and no other. -/
theorem exists_level_of_remove {q rest : ReadyQueue} {thread : ThreadId} (ordered : q.Ordered)
    (h : q.remove thread = some rest) :
    ∃ policy, thread ∈ q.threadsAt policy ∧
      rest.threadsAt policy = (q.threadsAt policy).erase thread ∧
      (∀ p, p ≠ policy → rest.threadsAt p = q.threadsAt p) ∧
      ∀ p, p.Outranks policy → thread ∉ q.threadsAt p := by
  obtain ⟨levels, taken, rfl⟩ := Option.map_eq_some_iff.mp h
  exact (takeOut_levels ordered taken).2

/-- A thread can be removed exactly if it waits. -/
theorem remove_isSome_iff {q : ReadyQueue} {thread : ThreadId} :
    (q.remove thread).isSome ↔ thread ∈ q.toList := by
  simp [remove, toList, takeOut_isSome_iff]

/-! ### The whole queue -/

private theorem mem_flatMap_iff {levels : List Level} (distinct : (levels.map (·.policy)).Nodup)
    {thread : ThreadId} :
    thread ∈ levels.flatMap (·.threads) ↔ ∃ policy, thread ∈ threadsIn levels policy := by
  induction levels with
  | nil => simp [threadsIn]
  | cons level lower ih =>
    rw [List.map_cons, List.nodup_cons] at distinct
    obtain ⟨fresh, lowerDistinct⟩ := distinct
    rw [List.flatMap_cons, List.mem_append, ih lowerDistinct]
    constructor
    · rintro (member | ⟨policy, member⟩)
      · exact ⟨level.policy, by simpa [threadsIn_cons] using member⟩
      · refine ⟨policy, ?_⟩
        rw [threadsIn_cons, if_neg]
        · exact member
        · exact fun same => fresh (same ▸ served_of_mem member)
    · rintro ⟨policy, member⟩
      rw [threadsIn_cons] at member
      split at member
      · exact .inl member
      · exact .inr ⟨policy, member⟩

/-- A thread waits exactly if it waits with some policy. -/
theorem mem_toList_iff {q : ReadyQueue} (ordered : q.Ordered) {thread : ThreadId} :
    thread ∈ q.toList ↔ ∃ policy, thread ∈ q.threadsAt policy :=
  mem_flatMap_iff ordered.nodup

/-- If nobody waits, nobody waits with any policy. -/
theorem threadsAt_of_toList_eq_nil {q : ReadyQueue} (ordered : q.Ordered) (empty : q.toList = [])
    (policy : Policy) : q.threadsAt policy = [] := by
  apply List.eq_nil_iff_forall_not_mem.mpr
  intro thread waits
  have listed := (mem_toList_iff ordered).mpr ⟨policy, waits⟩
  rw [empty] at listed
  cases listed

private theorem nodup_flatMap {levels : List Level} (distinct : (levels.map (·.policy)).Nodup)
    (once : ∀ policy, (threadsIn levels policy).Nodup)
    (apart : ∀ {p q thread}, thread ∈ threadsIn levels p → thread ∈ threadsIn levels q → p = q) :
    (levels.flatMap (·.threads)).Nodup := by
  induction levels with
  | nil => simp
  | cons level lower ih =>
    rw [List.map_cons, List.nodup_cons] at distinct
    obtain ⟨fresh, lowerDistinct⟩ := distinct
    have head : threadsIn (level :: lower) level.policy = level.threads := by
      simp [threadsIn_cons]
    have below (policy : Policy) (thread : ThreadId) (member : thread ∈ threadsIn lower policy) :
        level.policy ≠ policy ∧ thread ∈ threadsIn (level :: lower) policy := by
      have other : level.policy ≠ policy := fun same => fresh (same ▸ served_of_mem member)
      exact ⟨other, by simpa [threadsIn_cons, other] using member⟩
    rw [List.flatMap_cons, List.nodup_append]
    refine ⟨head ▸ once level.policy, ih lowerDistinct ?_ ?_, ?_⟩
    · intro policy
      by_cases here : level.policy = policy
      · rw [threadsIn_eq_nil (here ▸ fresh)]
        exact List.nodup_nil
      · simpa [threadsIn_cons, here] using once policy
    · intro p q thread inP inQ
      exact apart (below p thread inP).2 (below q thread inQ).2
    · rintro thread inHead other inLower rfl
      obtain ⟨policy, member⟩ := (mem_flatMap_iff lowerDistinct).mp inLower
      obtain ⟨distinct, inBelow⟩ := below policy thread member
      exact distinct (apart (head.symm ▸ inHead) inBelow)

/-- Nobody waits twice if nobody waits twice with one policy or with two policies. -/
theorem nodup_toList {q : ReadyQueue} (ordered : q.Ordered)
    (once : ∀ policy, (q.threadsAt policy).Nodup)
    (apart : ∀ {p p' thread}, thread ∈ q.threadsAt p → thread ∈ q.threadsAt p' → p = p') :
    q.toList.Nodup :=
  nodup_flatMap ordered.nodup once apart

/-- Each level holds the threads that wait with its policy. -/
theorem threads_eq_of_mem {q : ReadyQueue} (ordered : q.Ordered) {level : Level}
    (member : level ∈ q.levels) : q.threadsAt level.policy = level.threads := by
  obtain ⟨levels⟩ := q
  have distinct : (levels.map (·.policy)).Nodup := ordered.nodup
  change threadsIn levels level.policy = level.threads
  replace member : level ∈ levels := member
  clear ordered
  induction levels with
  | nil => cases member
  | cons first lower ih =>
    rw [List.map_cons, List.nodup_cons] at distinct
    rw [threadsIn_cons]
    rcases List.mem_cons.mp member with rfl | below
    · simp
    · have other : first.policy ≠ level.policy := fun same =>
        distinct.1 (List.mem_map.mpr ⟨level, below, same.symm⟩)
      rw [if_neg other, ih distinct.2 below]

/-- The levels made for a list of policies are in order, and empty. -/
theorem ordered_ofPolicies (policies : List Policy) : (ofPolicies policies).Ordered := by
  unfold Ordered ReadyQueue.policies ofPolicies
  rw [List.map_map]
  refine List.Pairwise.sublist ?_ (show Policy.all.Pairwise Policy.Outranks by decide)
  simp [Function.comp_def]

theorem threadsAt_ofPolicies (policies : List Policy) (p : Policy) :
    (ofPolicies policies).threadsAt p = [] := by
  unfold threadsAt threadsIn ofPolicies
  cases found : List.find? (·.policy = p)
      ((Policy.all.filter (· ∈ policies)).map fun policy => ({ policy } : Level)) with
  | none => rfl
  | some level =>
    obtain ⟨policy, _, rfl⟩ := List.mem_map.mp (List.mem_of_find?_eq_some found)
    rfl

end ReadyQueue

end ThreadScheduler
