/-
Module: ThreadScheduler.Proofs.Timeline.Waits
Purpose: The timeline read through the waits of its entries. The wait of an entry is the sum of the
  deltas up to and including its own, taken without a bound. Every operation that splits, merges or
  carries over deltas does something plain to the waits: it places one, lowers all of them, or takes
  one out.
Main exports: placeBehindLast, Timeline.waits, Timeline.Fits, Timeline.waits_enqueueAfter,
  Timeline.waits_advance, Timeline.waits_remove, Timeline.sleepers_eq_waits
-/
import ThreadScheduler.Proofs.Tables

namespace ThreadScheduler

open Saturating (maxWord)

section Placing

variable {α β : Type} (ahead : α → Bool) (entry : α)

/-- Puts an entry behind the last one of those that stand ahead of it, and in front of all others if
none does. -/
def placeBehindLast : List α → List α
  | [] => [entry]
  | first :: rest =>
      if (first :: rest).any ahead then first :: placeBehindLast rest else entry :: first :: rest

/-- Placing an entry adds it and nothing else. -/
theorem placeBehindLast_perm (entries : List α) :
    (placeBehindLast ahead entry entries).Perm (entry :: entries) := by
  induction entries with
  | nil => exact List.Perm.refl _
  | cons first rest ih =>
    unfold placeBehindLast
    split
    · exact (ih.cons first).trans (List.Perm.swap _ _ _)
    · exact List.Perm.refl _

/-- Placing goes by what an entry is compared by. -/
theorem map_placeBehindLast (view : α → β) (before : β → Bool)
    (same : ∀ other, before (view other) = ahead other) (entries : List α) :
    (placeBehindLast ahead entry entries).map view =
      placeBehindLast before (view entry) (entries.map view) := by
  have anyone (some : List α) : (some.map view).any before = some.any ahead := by
    simp [List.any_map, Function.comp_def, same]
  induction entries with
  | nil => rfl
  | cons first rest ih =>
    have here := anyone (first :: rest)
    rw [List.map_cons] at here
    simp only [placeBehindLast, List.map_cons, here]
    split
    · rw [List.map_cons, ih]
    · rfl

/-- An order in which the entry comes after all that stand ahead of it and before all others is kept
by placing it. -/
theorem pairwise_placeBehindLast {before : α → α → Prop} {entries : List α}
    (sorted : entries.Pairwise before)
    (after : ∀ other ∈ entries, ahead other → before other entry)
    (first : ∀ other ∈ entries, ¬ ahead other → before entry other)
    (lower : ∀ one ∈ entries, ∀ other ∈ entries, before one other → ahead other → ahead one) :
    (placeBehindLast ahead entry entries).Pairwise before := by
  induction entries with
  | nil => exact List.pairwise_singleton _ _
  | cons head rest ih =>
    obtain ⟨least, ordered⟩ := List.pairwise_cons.mp sorted
    unfold placeBehindLast
    split
    · rename_i some
      have leads : ahead head := by
        obtain ⟨other, present, front⟩ := List.any_eq_true.mp some
        rcases List.mem_cons.mp present with rfl | later
        · exact front
        · exact lower head List.mem_cons_self other present (least other later) front
      have later := ih ordered (fun other present => after other (List.mem_cons_of_mem _ present))
        (fun other present => first other (List.mem_cons_of_mem _ present))
        fun one here other there =>
          lower one (List.mem_cons_of_mem _ here) other (List.mem_cons_of_mem _ there)
      refine List.pairwise_cons.mpr ⟨fun other present => ?_, later⟩
      rcases List.mem_cons.mp ((placeBehindLast_perm ahead entry rest).mem_iff.mp present) with
        rfl | old
      · exact after head List.mem_cons_self leads
      · exact least other old
    · rename_i none
      refine List.pairwise_cons.mpr ⟨fun other present => ?_, sorted⟩
      exact first other present fun front =>
        none (List.any_eq_true.mpr ⟨other, present, front⟩)

end Placing

namespace Timeline

/-- The entries with their waits, when the first one waits from `start` on. -/
def waitsFrom : Nat → List Sleeper → List (ThreadId × Nat)
  | _, [] => []
  | start, node :: rest =>
      (node.thread, start + node.delta.nanos.toNat) ::
        waitsFrom (start + node.delta.nanos.toNat) rest

/-- The sleeping threads with their waits: each is the sum of the deltas up to and including that of
the thread. -/
def waits (t : Timeline) : List (ThreadId × Nat) := waitsFrom 0 t.nodes

/-- No wait is longer than a span of time can be. -/
def Fits (t : Timeline) : Prop := ∀ entry ∈ t.waits, entry.2 ≤ maxWord

theorem le_of_mem_waitsFrom {start : Nat} {nodes : List Sleeper} {entry : ThreadId × Nat}
    (present : entry ∈ waitsFrom start nodes) : start ≤ entry.2 := by
  induction nodes generalizing start with
  | nil => cases present
  | cons node rest ih =>
    rcases List.mem_cons.mp present with rfl | later
    · exact Nat.le_add_right _ _
    · exact Nat.le_trans (Nat.le_add_right _ _) (ih later)

/-- The waits do not decrease along the timeline. -/
theorem waits_sorted (t : Timeline) : t.waits.Pairwise fun a b => a.2 ≤ b.2 := by
  have onward (start : Nat) (nodes : List Sleeper) :
      (waitsFrom start nodes).Pairwise fun a b => a.2 ≤ b.2 := by
    induction nodes generalizing start with
    | nil => exact List.Pairwise.nil
    | cons node rest ih =>
      exact List.pairwise_cons.mpr ⟨fun _ present => le_of_mem_waitsFrom present, ih _⟩
  exact onward 0 t.nodes

private theorem waitsFrom_threads (start : Nat) (nodes : List Sleeper) :
    (waitsFrom start nodes).map (·.1) = nodes.map (·.thread) := by
  induction nodes generalizing start with
  | nil => rfl
  | cons node rest ih => simp [waitsFrom, ih]

/-- The waits name the sleeping threads in their order. -/
theorem waits_threads (t : Timeline) : t.waits.map (·.1) = t.threads :=
  waitsFrom_threads 0 t.nodes

theorem waitsFrom_insertNode (thread : ThreadId) (start : Nat) (wait : Duration)
    (nodes : List Sleeper) :
    waitsFrom start (insertNode thread wait nodes) =
      placeBehindLast (fun entry => decide (entry.2 ≤ start + wait.nanos.toNat))
        (thread, start + wait.nanos.toNat) (waitsFrom start nodes) := by
  induction nodes generalizing start wait with
  | nil => rfl
  | cons node rest ih =>
    by_cases sooner : wait < node.delta
    · -- The new node goes in front, and what it waits comes off the delta behind it.
      have less := Duration.lt_iff.mp sooner
      have none : ¬ (waitsFrom start (node :: rest)).any
          fun entry => decide (entry.2 ≤ start + wait.nanos.toNat) := by
        rw [List.any_eq_true]
        rintro ⟨entry, present, early⟩
        have late : start + node.delta.nanos.toNat ≤ entry.2 := by
          rcases List.mem_cons.mp present with rfl | later
          · exact Nat.le_refl _
          · exact le_of_mem_waitsFrom later
        have := of_decide_eq_true early
        omega
      rw [insertNode, if_pos sooner]
      simp only [waitsFrom] at none ⊢
      rw [placeBehindLast, if_neg none, Duration.toNat_sub]
      have rejoined : start + wait.nanos.toNat + (node.delta.nanos.toNat - wait.nanos.toNat) =
          start + node.delta.nanos.toNat := by omega
      rw [rejoined]
    · -- The search goes on behind the node, with what is left of the wait.
      have more : node.delta.nanos.toNat ≤ wait.nanos.toNat :=
        Nat.le_of_not_lt fun less => sooner (Duration.lt_iff.mpr less)
      have left : start + node.delta.nanos.toNat + (wait - node.delta).nanos.toNat =
          start + wait.nanos.toNat := by
        rw [Duration.toNat_sub]
        omega
      rw [insertNode, if_neg sooner]
      simp only [waitsFrom]
      rw [placeBehindLast, if_pos, ih, left]
      exact List.any_eq_true.mpr ⟨_, List.mem_cons_self, decide_eq_true (by dsimp only; omega)⟩

/-- A thread that goes to sleep is placed behind all that wait no longer than it, and changes no
other wait. -/
theorem waits_enqueueAfter (t : Timeline) (thread : ThreadId) (delay : Duration) :
    (t.enqueueAfter thread delay).waits =
      placeBehindLast (fun entry => decide (entry.2 ≤ delay.nanos.toNat))
        (thread, delay.nanos.toNat) t.waits := by
  have placed := waitsFrom_insertNode thread 0 delay t.nodes
  rwa [Nat.zero_add] at placed

private theorem waitsFrom_elapse (elapsed start : Nat) (left : Duration) (nodes : List Sleeper)
    (rest : left.nanos.toNat = elapsed - start) :
    waitsFrom (start - elapsed) (elapse left nodes) =
      (waitsFrom start nodes).map fun entry => (entry.1, entry.2 - elapsed) := by
  induction nodes generalizing start left with
  | nil => rfl
  | cons node others ih =>
    have here : start - elapsed + (node.delta - min node.delta left).nanos.toNat =
        start + node.delta.nanos.toNat - elapsed := by
      rw [Duration.toNat_sub, Duration.toNat_min, rest]
      omega
    have later : (left - min node.delta left).nanos.toNat =
        elapsed - (start + node.delta.nanos.toNat) := by
      rw [Duration.toNat_sub, Duration.toNat_min, rest]
      omega
    simp only [elapse, waitsFrom, List.map_cons, here]
    rw [ih _ _ later]

/-- The passing of time lowers every wait by the time that passed, down to zero. -/
theorem waits_advance (t : Timeline) (elapsed : Duration) :
    (t.advance elapsed).waits =
      t.waits.map fun entry => (entry.1, entry.2 - elapsed.nanos.toNat) := by
  have lowered := waitsFrom_elapse elapsed.nanos.toNat 0 elapsed t.nodes rfl
  rwa [Nat.zero_sub] at lowered

private theorem waitsFrom_postpone (start : Nat) (delay : Duration) (nodes : List Sleeper)
    (fits : ∀ entry ∈ waitsFrom (start + delay.nanos.toNat) nodes, entry.2 ≤ maxWord) :
    waitsFrom start (postpone delay nodes) = waitsFrom (start + delay.nanos.toNat) nodes := by
  cases nodes with
  | nil => rfl
  | cons node rest =>
    have bound : start + delay.nanos.toNat + node.delta.nanos.toNat ≤ maxWord :=
      fits _ List.mem_cons_self
    have sum : start + (node.delta + delay).nanos.toNat =
        start + delay.nanos.toNat + node.delta.nanos.toNat := by
      rw [Duration.toNat_add]
      omega
    -- Only the first delta changes: the waits behind it start from the same sum.
    simp only [postpone, waitsFrom, sum]

private theorem waitsFrom_unlink {thread : ThreadId} {start : Nat} {nodes others : List Sleeper}
    (fits : ∀ entry ∈ waitsFrom start nodes, entry.2 ≤ maxWord)
    (taken : unlink thread nodes = some others) :
    waitsFrom start others = (waitsFrom start nodes).eraseP (·.1 = thread) := by
  induction nodes generalizing start others with
  | nil => cases taken
  | cons node rest ih =>
    have later : ∀ entry ∈ waitsFrom (start + node.delta.nanos.toNat) rest, entry.2 ≤ maxWord :=
      fun entry present => fits entry (List.mem_cons_of_mem _ present)
    unfold unlink at taken
    split at taken
    · rename_i same
      obtain rfl := Option.some.inj taken
      rw [waitsFrom, List.eraseP_cons_of_pos (by simpa using same),
        waitsFrom_postpone start node.delta rest later]
    · rename_i other
      obtain ⟨shorter, removed, rfl⟩ := Option.map_eq_some_iff.mp taken
      rw [waitsFrom, waitsFrom, List.eraseP_cons_of_neg (by simpa using other), ih later removed]

/-- Taking a thread off the timeline takes out its first entry and changes no other wait. -/
theorem waits_remove {t rest : Timeline} {thread : ThreadId} (fits : t.Fits)
    (taken : t.remove thread = some rest) :
    rest.waits = t.waits.eraseP (·.1 = thread) := by
  obtain ⟨nodes, removed, rfl⟩ := Option.map_eq_some_iff.mp taken
  exact waitsFrom_unlink fits removed

/-- The present time is the same after a thread was taken off the timeline. -/
theorem now_remove {t rest : Timeline} {thread : ThreadId} (taken : t.remove thread = some rest) :
    rest.now = t.now := by
  obtain ⟨nodes, -, rfl⟩ := Option.map_eq_some_iff.mp taken
  rfl

private theorem wakeTimes_eq_waitsFrom (now start : Nat) (moment : Instant) (nodes : List Sleeper)
    (reached : moment.nanos.toNat = min (now + start) maxWord) :
    (wakeTimes moment nodes).map (fun sleeper => (sleeper.1, sleeper.2.nanos.toNat)) =
      (waitsFrom start nodes).map fun entry => (entry.1, min (now + entry.2) maxWord) := by
  induction nodes generalizing start moment with
  | nil => rfl
  | cons node rest ih =>
    have next : (moment + node.delta).nanos.toNat =
        min (now + (start + node.delta.nanos.toNat)) maxWord := by
      rw [Instant.toNat_add, reached]
      omega
    simp only [wakeTimes, waitsFrom, List.map_cons, next, ih _ _ next]

/-- A sleeper is listed with the present time plus its wait, or the last moment of the range. -/
theorem sleepers_eq_waits (t : Timeline) :
    t.sleepers.map (fun sleeper => (sleeper.1, sleeper.2.nanos.toNat)) =
      t.waits.map fun entry => (entry.1, min (t.now.nanos.toNat + entry.2) maxWord) := by
  apply wakeTimes_eq_waitsFrom
  have := Saturating.toNat_le_maxWord t.now.nanos
  omega

/-- The list of sleepers names the sleeping threads in their order. -/
theorem sleepers_threads (t : Timeline) : t.sleepers.map (·.1) = t.threads := by
  have named := congrArg (List.map (·.1)) t.sleepers_eq_waits
  simpa [Function.comp_def, waits_threads] using named

theorem mem_sleepers_iff {t : Timeline} {thread : ThreadId} {wake : Instant} :
    (thread, wake) ∈ t.sleepers ↔ ∃ wait, (thread, wait) ∈ t.waits ∧
      wake.nanos.toNat = min (t.now.nanos.toNat + wait) maxWord := by
  have viewed : (thread, wake) ∈ t.sleepers ↔
      (thread, wake.nanos.toNat) ∈
        t.sleepers.map fun sleeper => (sleeper.1, sleeper.2.nanos.toNat) := by
    constructor
    · exact fun listed => List.mem_map_of_mem listed
    · intro listed
      obtain ⟨⟨other, moment⟩, present, same⟩ := List.mem_map.mp listed
      obtain ⟨rfl, words⟩ := Prod.mk.inj same
      obtain rfl : moment = wake := Instant.ext (UInt64.toNat_inj.mp words)
      exact present
  rw [viewed, sleepers_eq_waits, List.mem_map]
  constructor
  · rintro ⟨⟨other, wait⟩, present, same⟩
    obtain ⟨rfl, words⟩ := Prod.mk.inj same
    exact ⟨wait, present, words.symm⟩
  · rintro ⟨wait, present, words⟩
    exact ⟨(thread, wait), present, by rw [words]⟩

/-- The wake times do not decrease along the timeline. -/
theorem sleepers_sorted (t : Timeline) : t.sleepers.Pairwise fun a b => a.2 ≤ b.2 := by
  have waiting : (t.waits.map fun entry =>
      (entry.1, min (t.now.nanos.toNat + entry.2) maxWord)).Pairwise fun a b => a.2 ≤ b.2 :=
    List.Pairwise.map _ (fun a b (le : a.2 ≤ b.2) => by dsimp only; omega) t.waits_sorted
  rw [← sleepers_eq_waits] at waiting
  exact (List.pairwise_map.mp waiting).imp fun le => Instant.le_iff.mpr le

/-- The length of a timeline is the number of its waits. -/
theorem length_eq_waits (t : Timeline) : t.length = t.waits.length := by
  have same := congrArg List.length t.waits_threads
  simpa [threads, length] using same.symm

/-- The first thread is due after the first wait. -/
theorem nextWakeIn_eq_waits (t : Timeline) :
    t.nextWakeIn.map (·.nanos.toNat) = t.waits.head?.map (·.2) := by
  obtain ⟨now, nodes⟩ := t
  cases nodes <;> simp [nextWakeIn, waits, waitsFrom]

/-- The first thread can be taken off the timeline exactly if its wait is over. -/
theorem dequeue_eq_waits (t : Timeline) :
    (t.dequeue = none ∧ ∀ entry ∈ t.waits.head?, entry.2 ≠ 0) ∨
      ∃ thread rest, t.dequeue = some (thread, rest) ∧ rest.now = t.now ∧
        t.waits = (thread, 0) :: rest.waits := by
  obtain ⟨now, nodes⟩ := t
  cases nodes with
  | nil => exact .inl ⟨rfl, by simp [waits, waitsFrom]⟩
  | cons node rest =>
    by_cases due : node.delta = .zero
    · refine .inr ⟨node.thread, ⟨now, rest⟩, by simp [dequeue, due], rfl, ?_⟩
      simp [waits, waitsFrom, due, Duration.zero]
    · refine .inl ⟨by simp [dequeue, due], fun entry first elapsed => due ?_⟩
      obtain rfl : (node.thread, 0 + node.delta.nanos.toNat) = entry := by
        simpa [waits, waitsFrom] using first
      exact Duration.eq_zero_iff.mpr (by simpa using elapsed)

/-- Draining takes off those whose wait is over and nobody else. -/
theorem waits_drain (t : Timeline) : t.drain.2.waits = t.waits.filter fun entry => 0 < entry.2 := by
  obtain ⟨now, nodes⟩ := t
  induction nodes with
  | nil => rfl
  | cons node rest ih =>
    by_cases due : node.delta = .zero
    · have shorter : (drain ⟨now, node :: rest⟩).2 = (drain ⟨now, rest⟩).2 := by
        simp [drain, due]
      have first : waits ⟨now, node :: rest⟩ = (node.thread, 0) :: waits ⟨now, rest⟩ := by
        simp [waits, waitsFrom, due, Duration.zero]
      rw [shorter, ih, first, List.filter_cons_of_neg (by simp)]
    · have wait : 0 < node.delta.nanos.toNat :=
        Nat.pos_of_ne_zero fun elapsed => due (Duration.eq_zero_iff.mpr elapsed)
      have same : (drain ⟨now, node :: rest⟩).2 = ⟨now, node :: rest⟩ := by simp [drain, due]
      rw [same, List.filter_eq_self.mpr]
      intro entry present
      refine decide_eq_true ?_
      rcases List.mem_cons.mp present with rfl | later
      · simpa using wait
      · exact Nat.lt_of_lt_of_le (by simpa using wait) (le_of_mem_waitsFrom later)

end Timeline

end ThreadScheduler
